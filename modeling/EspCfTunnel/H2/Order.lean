import EspCfTunnel.H2.Walk

/-!
# The order of callbacks

What the application is told about a stream, from the creation of a session to its destruction, when
its callbacks re-enter the session only to respond and to resume.
-/

namespace EspCfTunnel.H2

open EspCfTunnel StateLogic

/-! ## Destroying a session -/

/-- What holds while `cf_h2_destroy` closes the streams; the slots in `rest` are still to come. -/
structure Leaving (past : List Event) (seen : Int → Prop) (rest : List (Fin slots)) (log : List Note)
    (h : Session) : Prop where
  distinct : h.Distinct
  slot : ∀ i, (h.streams i).id ≠ 0 → seen (h.streams i).id
  told : ∀ n ∈ log, ∀ id, n.stream = some id → seen id
  order : History.Obeys Allowed log
  started : ∀ id, received id log <+: payload id past
  closed : ∀ i ∈ rest, (h.streams i).id ≠ 0 → ¬ Closed (h.streams i).id log
  kept : ∀ id, seen id → Closed id log ∨ ∃ i ∈ rest, (h.streams i).id = id

section
variable {m : Prop} {past : List Event} {seen : Int → Prop} {rest : List (Fin slots)}
  {base log log' : List Note} {h h' : Session} {i : Fin slots}

/-- A slot that is not in use is passed over. -/
theorem Leaving.skip (hl : Leaving past seen (i :: rest) log h) (hzero : ¬ seen 0)
    (hi : (h.streams i).id = 0) : Leaving past seen rest log h :=
  { hl with
    closed := fun j hj => hl.closed j (List.mem_cons_of_mem _ hj)
    kept := by
      intro id hid
      rcases hl.kept id hid with hc | ⟨j, hj, hjid⟩
      · exact .inl hc
      · rcases List.mem_cons.1 hj with rfl | hj
        · rw [hi] at hjid
          exact absurd (hjid ▸ hid) hzero
        · exact .inr ⟨j, hj, hjid⟩ }

/-- The stream in a slot is closed. -/
theorem Leaving.close {error : Nat} {rc : Result} (hl : Leaving past seen (i :: rest) log h)
    (hnew : i ∉ rest) (hi : (h.streams i).id ≠ 0)
    (ha : After m (.closed (h.streams i).id error) log h rc log' h') : Leaving past seen rest log' h' := by
  have hreceived := ha.received
  obtain ⟨l, rfl, he⟩ := ha
  obtain ⟨l', rfl, hinert⟩ := he.notes
  have hnotes : ∀ n ∈ l', n.inert = true := fun n hn => (hinert n hn).1
  have hid j : (h'.streams j).id = (h.streams j).id := (he.stream j).1
  obtain ⟨x, hx⟩ : ∃ x, x = (h.streams i).id := ⟨_, rfl⟩
  rw [← hx] at hreceived hi ⊢
  have hclosed : ∀ id, Closed id (log ++ [.closed x error] ++ l' ++ [.returned (.closed x error) rc]) ↔
      Closed id log ∨ id = x := by
    intro id
    unfold Closed
    constructor
    · rintro ⟨error', hmem⟩
      rw [mem_concat_of_ne (by simp), mem_append_inert hnotes rfl, List.mem_append,
        List.mem_singleton] at hmem
      rcases hmem with hmem | hmem
      · exact .inl ⟨error', hmem⟩
      · exact .inr (Note.closed.inj hmem).1
    · rintro (⟨error', hmem⟩ | rfl)
      · exact ⟨error', by simp [hmem]⟩
      · exact ⟨error, by simp⟩
  constructor
  · exact he.distinct hl.distinct
  · simpa only [hid] using hl.slot
  · intro n hn id hstream
    have hself : seen x := hx ▸ hl.slot i (hx ▸ hi)
    simp only [List.mem_append, List.mem_singleton] at hn
    rcases hn with ((hn | rfl) | hn) | rfl
    · exact hl.told n hn id hstream
    · exact Option.some.inj hstream ▸ hself
    · obtain ⟨j, rfl, h0⟩ := (hinert n hn).2 id hstream
      exact hl.slot j h0
    · exact Option.some.inj hstream ▸ hself
  · refine History.obeys_concat.2 ⟨obeys_append_inert allowed_of_inert hnotes ?_, trivial⟩
    refine History.obeys_concat.2 ⟨hl.order, ?_⟩
    rw [hx]
    exact hl.closed i List.mem_cons_self (hx ▸ hi)
  · intro id
    rw [hreceived]
    exact (List.append_nil _).symm ▸ hl.started id
  · intro j hj h0 hc
    rw [hid] at h0 hc
    rcases (hclosed _).1 hc with hc | hc
    · exact hl.closed j (List.mem_cons_of_mem _ hj) h0 hc
    · obtain rfl := hl.distinct j i h0 (hc.trans hx)
      exact hnew hj
  · intro id hid'
    rw [hclosed]
    rcases hl.kept id hid' with hc | ⟨j, hj, hjid⟩
    · exact .inl (.inl hc)
    · rcases List.mem_cons.1 hj with rfl | hj
      · exact .inl (.inr (hjid.symm.trans hx.symm))
      · exact .inr ⟨j, hj, (hid j).trans hjid⟩

theorem destroySlots_leaving (hzero : ¬ seen 0) (hnodup : rest.Nodup)
    (hl : Leaving past seen rest log h) :
    Triple (Start m base log h) (destroySlots rest) fun _ c =>
      Leaving past seen [] (base ++ c.log) c.h := by
  induction rest generalizing log h with
  | nil =>
    rintro c ⟨rfl, rfl, -⟩
    exact hl
  | cons i rest ih =>
    obtain ⟨hnew, hnodup⟩ := List.nodup_cons.1 hnodup
    rintro c ⟨rfl, rfl, hallows⟩
    rw [destroySlots, run_bind, run_get]
    dsimp only
    by_cases hi : (c.h.streams i).id ≠ 0
    · rw [if_pos hi]
      obtain ⟨l, heq, heffect, hallows₁⟩ :=
        callback_effect (m := m) hl.distinct (.closed (c.h.streams i).id 8) c ⟨rfl, rfl, hallows⟩
      obtain ⟨reply, c₁, hrun⟩ : ∃ reply c₁,
        callback (.closed (c.h.streams i).id 8) c = (reply, c₁) := ⟨_, _, rfl⟩
      rw [hrun] at heq heffect hallows₁
      rw [run_bind_eq hrun]
      exact ih hnodup (hl.close hnew hi ⟨l, heq, heffect⟩) c₁ ⟨rfl, rfl, hallows₁⟩
    · rw [if_neg hi]
      exact ih hnodup (hl.skip hzero (not_not.1 hi)) c ⟨rfl, rfl, hallows⟩

end

/-- What happens in a run of a session and when it is destroyed afterwards. -/
def World.life (w : World) (t : Trace) (o : Oracle) : List Note :=
  w.notes t ++ (destroy ⟨(w.run t).h, o, (w.run t).env.responses, []⟩).2.log

/-! ## The order of callbacks -/

theorem countP_closes_le {log : List Note} (hlog : History.Obeys Allowed log) (id : Int) :
    log.countP (Note.closes id) ≤ 1 := by
  induction log using List.reverseRecOn with
  | nil => exact Nat.zero_le _
  | append_singleton log n ih =>
    obtain ⟨hlog, hn⟩ := History.obeys_concat.1 hlog
    rw [List.countP_append, List.countP_singleton]
    split
    · next hcloses =>
      have hno : ¬ Closed id log := by
        cases n with
        | closed id' error =>
          obtain rfl : id' = id := by simpa [Note.closes] using hcloses
          exact hn
        | _ => cases hcloses
      have hzero : log.countP (Note.closes id) = 0 := by
        rw [List.countP_eq_zero]
        intro n' hn' hc
        exact hno (any_closes.1 (List.any_eq_true.2 ⟨n', hn', hc⟩))
      omega
    · exact ih hlog

/-- In every session, with any order of nghttp2's events and of API calls, and callbacks that only
respond and resume: every callback is allowed by what happened before it, the bytes that the
application is given are a prefix of the body that has arrived, it hears only of streams that had a
slot, and of each of these it hears exactly once that it is closed. -/
theorem callback_order {apps limit : Nat} {h : Session} (hcreate : h2Create apps limit true = .ok h)
    {t : Trace} (hlegal : World.Legal ⟨h, {}⟩ t) (horder : World.Orderly ⟨h, {}⟩ [] t) {o : Oracle}
    (hvalid : ∀ reply ∈ o.replies, ∀ call ∈ reply.calls, call.Valid) (hmodest : o.Modest) :
    History.Obeys Allowed (World.life ⟨h, {}⟩ t o) ∧
      (∀ id, received id (World.life ⟨h, {}⟩ t o) <+: payload id (t.map Prod.fst)) ∧
      (∀ n ∈ World.life ⟨h, {}⟩ t o, ∀ id, n.stream = some id → World.Occupied ⟨h, {}⟩ t id) ∧
      (∀ id, World.Occupied ⟨h, {}⟩ t id →
        (World.life ⟨h, {}⟩ t o).countP (Note.closes id) = 1) := by
  have hstory := World.run_story (p := False) (q := True) (w := ⟨h, {}⟩) (Inv.create hcreate)
    (Story.create hcreate) hlegal (fun _ => horder) nofun
  have hstart : Leaving (t.map Prod.fst) (fun id => False ∨ World.Occupied ⟨h, {}⟩ t id)
      (List.finRange slots) (World.notes ⟨h, {}⟩ t) (World.run ⟨h, {}⟩ t).h := {
    distinct := hstory.distinct
    slot := hstory.slot
    told := hstory.told
    order := hstory.order trivial
    started := hstory.started trivial
    closed := fun i _ h0 => hstory.closed i h0 h0
    kept := fun id hid => (hstory.kept id hid).imp_right fun ⟨i, hi⟩ => ⟨i, List.mem_finRange i, hi⟩ }
  have hzero : ¬ (False ∨ World.Occupied ⟨h, {}⟩ t 0) := fun h0 => hstory.zero (hstory.known 0 h0)
  have hend : Leaving (t.map Prod.fst) (fun id => False ∨ World.Occupied ⟨h, {}⟩ t id) []
      (World.life ⟨h, {}⟩ t o) _ :=
    destroySlots_leaving (m := True) hzero (List.nodup_finRange slots) hstart
      ⟨(World.run ⟨h, {}⟩ t).h, o, (World.run ⟨h, {}⟩ t).env.responses, []⟩
      ⟨List.append_nil _, rfl, fun reply hr call hcall =>
        ⟨hvalid reply hr call hcall, fun _ => hmodest reply hr call hcall⟩⟩
  refine ⟨hend.order, hend.started, fun n hn id hid => (hend.told n hn id hid).resolve_left not_false,
    fun id hid => ?_⟩
  have hclosed : Closed id (World.life ⟨h, {}⟩ t o) := (hend.kept id (.inr hid)).resolve_right nofun
  have hpos : 0 < (World.life ⟨h, {}⟩ t o).countP (Note.closes id) := by
    obtain ⟨n, hn, hc⟩ := List.any_eq_true.1 (any_closes.2 hclosed)
    exact List.countP_pos_iff.2 ⟨n, hn, hc⟩
  exact le_antisymm (countP_closes_le hend.order id) hpos

/-- A request with a body, whose response is read and which is closed, and a second one that is still
open when the session is destroyed. -/
def twoRequests : Trace :=
  [(.beginHeaders 1 true, {}),
    (.frame ⟨1, .headers, false⟩, { replies := [⟨[.respond 1 200 [] true], .ok, 0, false⟩] }),
    (.data 1 [7, 8], {}), (.frame ⟨1, .data, true⟩, {}), (.beginHeaders 3 true, {}),
    (.frame ⟨3, .headers, false⟩, {}), (.read 1 100, { replies := [⟨[], .ok, 5, true⟩] }),
    (.closed 1 0, {})]

theorem callback_order_twoRequests :
    World.Legal ⟨{ appLimit := 2 }, {}⟩ twoRequests ∧
      World.Orderly ⟨{ appLimit := 2 }, {}⟩ [] twoRequests ∧
      received 1 (World.life ⟨{ appLimit := 2 }, {}⟩ twoRequests {}) = [7, 8] ∧
      (World.life ⟨{ appLimit := 2 }, {}⟩ twoRequests {}).countP (Note.closes 1) = 1 ∧
      (World.life ⟨{ appLimit := 2 }, {}⟩ twoRequests {}).countP (Note.closes 3) = 1 := by
  have hcreate : h2Create 2 8192 true = .ok { appLimit := 2 } := rfl
  have hlegal : World.Legal ⟨{ appLimit := 2 }, {}⟩ twoRequests := by decide +kernel
  have horder : World.Orderly ⟨{ appLimit := 2 }, {}⟩ [] twoRequests := by decide +kernel
  obtain ⟨-, -, -, hclosed⟩ := callback_order hcreate hlegal horder (o := {}) nofun nofun
  have hfirst : World.Occupied ⟨{ appLimit := 2 }, {}⟩ twoRequests 1 :=
    ⟨by simp, twoRequests.take 1, List.take_prefix _ _, 0, by decide +kernel⟩
  have hsecond : World.Occupied ⟨{ appLimit := 2 }, {}⟩ twoRequests 3 :=
    ⟨by simp, twoRequests.take 5, List.take_prefix _ _, 1, by decide +kernel⟩
  exact ⟨hlegal, horder, by decide +kernel, hclosed 1 hfirst, hclosed 3 hsecond⟩

end EspCfTunnel.H2
