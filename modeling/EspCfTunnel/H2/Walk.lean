import EspCfTunnel.H2.Story

/-!
# Events keep slots and history in agreement

Every event that nghttp2 may bring, and every API call, takes a session on which slots and history
agree to one on which they agree again; then so does every run.
-/

namespace EspCfTunnel.H2

open EspCfTunnel StateLogic

/-- Where a part of an event starts: the history is `log` and the session `h`. -/
structure Start (m : Prop) (base log : List Note) (h : Session) (c : Ctx) : Prop where
  log : base ++ c.log = log
  h : c.h = h
  allows : c.oracle.Allows m

section
variable {p q m : Prop} {k : Nat} {env : Env} {past : List Event} {seen : Int → Prop} {x y : Int}
  {base log : List Note} {h : Session}

/-! ## Resets and callbacks -/

theorem Start.ran {m' : Prop} {c : Ctx} (hc : Start m base log h c) : Ran m' m base log h c := by
  obtain ⟨rfl, rfl, hallows⟩ := hc
  exact ⟨(Quiet.refl _).effect, hallows⟩

/-- A reset ends what was left open for its stream. -/
theorem reset_story (hs : Story p k q env past seen x 0 log h) (hx : x ≠ 0) (error : Nat) :
    Triple (Start m base log h) (reset x error) fun _ c =>
      Story p k q env past seen 0 0 (base ++ c.log) c.h := by
  intro c hc
  obtain ⟨hran, hreset⟩ := reset_ran (m := False) not_false hs.distinct hx error c hc.ran
  exact (hs.effect hran.effect).settle_reset hreset

theorem resetStatus_story (hs : Story p k q env past seen x 0 log h) (hx : x ≠ 0) (error : Nat) :
    Triple (Start m base log h) (resetStatus x error) fun _ c =>
      Story p k q env past seen 0 0 (base ++ c.log) c.h :=
  Triple.bind (reset_story hs hx error) fun _ => Triple.ret fun _ h => h

/-- What a callback leaves: its note, the effects of its API calls, and its return. -/
def After (m : Prop) (n : Note) (log : List Note) (h : Session) (rc : Result) (log' : List Note)
    (h' : Session) : Prop :=
  ∃ l, log' = l ++ [.returned n rc] ∧ Effect m (log ++ [n]) h l h'

theorem After.received {n : Note} {rc : Result} {log' : List Note} {h' : Session}
    (ha : After m n log h rc log' h') (id : Int) : received id log' = received id log ++ n.bytes id := by
  obtain ⟨l, rfl, he⟩ := ha
  obtain ⟨l', rfl, hl'⟩ := he.notes
  rw [received_concat, received_append_inert fun n hn => (hl' n hn).1, received_concat]
  exact List.append_nil _

theorem After.mem {n a : Note} {rc : Result} {log' : List Note} {h' : Session}
    (hafter : After m n log h rc log' h') (ha : a ∈ log) : a ∈ log' := by
  obtain ⟨l, rfl, he⟩ := hafter
  obtain ⟨l', rfl, -⟩ := he.notes
  simp [ha]

/-- What a callback leaves that is not its own was there before. -/
theorem After.of_mem {n a : Note} {rc : Result} {log' : List Note} {h' : Session}
    (hafter : After m n log h rc log' h') (ha : a ∈ log') (hinert : a.inert = false) (hn : a ≠ n)
    (hreturn : a ≠ .returned n rc) : a ∈ log := by
  obtain ⟨l, rfl, he⟩ := hafter
  obtain ⟨l', rfl, hl'⟩ := he.notes
  rw [mem_concat_of_ne hreturn, mem_append_inert (fun n hn => (hl' n hn).1) hinert,
    mem_concat_of_ne hn] at ha
  exact ha

/-- A callback keeps the agreement, if its note and its return may be noted: a request must be the
first of its stream, and in a slot. -/
theorem callback_story {n : Note} (hs : Story p k q env past seen x y log h)
    (hn : Apt p k q past seen x y log h n)
    (hreq : ∀ r, n = .request r → (∃ i, (h.streams i).id = r.stream ∧
      (h.streams i).headersDone = true ∧ (h.streams i).kind = r.kind) ∧
      ∀ r' rc, .returned (.request r') rc ∈ log → r'.stream ≠ r.stream) :
    Triple (Start q base log h) (callback n) fun reply c =>
      Story p k q env past seen x y (base ++ c.log) c.h ∧
        After q n log h reply.result (base ++ c.log) c.h ∧ c.oracle.Allows q := by
  intro c hc
  obtain ⟨l, heq, heffect, hallows⟩ := callback_effect (m := q) hs.distinct n c ⟨hc.log, hc.h, hc.allows⟩
  refine ⟨?_, ⟨l, heq, heffect⟩, hallows⟩
  have hnote : Story p k q env past seen x y l _ := (hs.note hn).effect heffect
  obtain ⟨l', hl', hinert⟩ := heffect.notes
  rw [heq]
  refine hnote.note {
    active := rfl
    told := hn.told
    closed := nofun
    fresh := nofun
    answered := fun n' rc hrc => ?_
    holds := fun r hr => ?_
    verdict := fun r rc hr r' rc' hmem => ?_
    free := fun _ => trivial
    order := fun _ => trivial
    whole := fun _ _ => rfl
    started := fun hq => ?_
    ended := nofun }
  · rw [← (Note.returned.inj hrc).1, hl']
    simp
  · obtain ⟨i, hid, hdone, hkind⟩ := (hreq r (Note.returned.inj hr).1).1
    obtain ⟨hid', hkind', hdone'⟩ := heffect.stream i
    exact ⟨i, hid'.trans hid, hdone'.trans hdone, hkind'.trans hkind⟩
  · obtain ⟨-, hfirst⟩ := hreq r (Note.returned.inj hr).1
    refine hfirst r' rc' ?_
    rw [hl', mem_append_inert (fun n hn => (hinert n hn).1) rfl] at hmem
    refine (mem_concat_of_ne ?_).1 hmem
    rw [(Note.returned.inj hr).1]
    simp
  · rw [show Note.bytes x (.returned n _) = [] from rfl, List.append_nil]
    exact hnote.started hq x

/-! ## Header blocks -/

/-- The streams that have been in a slot, with those in the slots of `h`. -/
def Seen (seen : Int → Prop) (h : Session) (id : Int) : Prop :=
  seen id ∨ id ≠ 0 ∧ ∃ i, (h.streams i).id = id

theorem Story.see {seen' : Int → Prop} (hs : Story p k q env past seen' x y log h) (seen : Int → Prop)
    (hold : ∀ id, seen id → seen' id) (hnew : ∀ id, seen' id → Seen seen h id) :
    Story p k q env past (Seen seen h) x y log h := by
  have heq : Seen seen h = seen' := by
    funext id
    refine propext ⟨?_, hnew id⟩
    rintro (hid | ⟨h0, i, rfl⟩)
    · exact hold id hid
    · exact hs.slot i h0
  rw [heq]
  exact hs

theorem Story.same (hs : Story p k q env past seen x y log h) :
    Story p k q env past (Seen seen h) x y log h :=
  hs.see seen (fun _ hid => hid) fun _ hid => .inl hid

theorem beginHeaders_story (hs : Story p k q env past seen 0 0 log h) {id : Int} {request : Bool}
    (hlegal : env.Legal (.beginHeaders id request)) :
    Triple (Start m base log h) (beginHeaders id request) fun _ c =>
      Story p k q (env.next (.beginHeaders id request)) (past ++ [.beginHeaders id request])
        (Seen seen c.h) 0 0 (base ++ c.log) c.h := by
  obtain ⟨hblock, hid, hnew⟩ := hlegal
  rintro c ⟨rfl, rfl, hallows⟩
  obtain ⟨env', henv⟩ : ∃ env', env' = env.next (.beginHeaders id request) := ⟨_, rfl⟩
  have hopened : ∀ id' ∈ env.opened, id' ∈ env'.opened := by
    intro id' hid'
    cases request with
    | false => rwa [henv]
    | true => rw [henv]; exact List.mem_cons_of_mem _ hid'
  have hzero : 0 ∉ env'.opened := by
    cases request with
    | false => rw [henv]; exact hs.zero
    | true =>
      rw [henv]
      intro h0
      rcases List.mem_cons.1 h0 with h0 | h0
      · exact hid h0.symm
      · exact hs.zero h0
  have hblock' : env'.block = some id := by rw [henv]; rfl
  have henter : Story p k q env' (past ++ [.beginHeaders id request]) seen id 0 (base ++ c.log)
      { c.h with headerStream := 0 } := by
    refine (hs.enter id hopened hzero (fun id' hne => ?_) (fun _ _ => rfl) (by nofun)).header
      (fun id' hid' => Option.some.inj (hid'.symm.trans hblock')) 0
    rw [hblock, hblock']
    exact ⟨fun heq => absurd (Option.some.inj heq).symm hne, nofun⟩
  obtain ⟨c₁, hc₁⟩ : ∃ c₁ : Ctx, c₁ = { c with h := { c.h with headerStream := 0 } } := ⟨_, rfl⟩
  have hstart : Start m base (base ++ c.log) { c.h with headerStream := 0 } c₁ := by
    rw [hc₁]
    exact ⟨rfl, rfl, hallows⟩
  unfold beginHeaders
  rw [run_bind_eq (show modifySession _ c = ((), c₁) by rw [hc₁]; rfl), ← henv]
  cases request with
  | false => exact (resetStatus_story henter hid 1 c₁ hstart).same
  | true =>
    rw [if_neg (by simp), run_bind, run_get]
    dsimp only
    cases hfree : c₁.h.findStream 0 with
    | none => exact (resetStatus_story henter hid 7 c₁ hstart).same
    | some i =>
      have hslot : (c.h.streams i).id = 0 := by
        rw [← findStream_eq_some hfree, hc₁]
      have hnew : id ∉ env.opened := hnew
      have hseen : ¬ seen id := fun hin => hnew (hs.known id hin)
      have hmem : id ∈ env'.opened := by rw [henv]; exact List.mem_cons_self
      have hpayload : payload id (past ++ [.beginHeaders id true]) = [] := by
        rw [payload_concat, List.append_eq_nil_iff]
        refine ⟨List.flatMap_eq_nil_iff.2 fun e he => ?_, rfl⟩
        cases e with
        | data id' bytes =>
          refine if_neg fun heq => hnew ?_
          rw [← heq]
          exact hs.early id' bytes he
        | _ => rfl
      have hopen := (henter.header (fun id' hid' => Option.some.inj (hid'.symm.trans hblock')) id).open
        hid hmem hseen hslot hblock' rfl hpayload c.h.nowMs
      have hquiet : Story p k q env' (past ++ [.beginHeaders id true]) (fun id' => seen id' ∨ id' = id) 0 0
          (base ++ c.log) { c.h.setStream i { id, progressMs := c.h.nowMs } with
            stats := { c.h.stats with activeStreams := (c.h.stats.activeStreams + 1) % 2 ^ 32 }
            headerStream := id
            headers := []
            headerUsed := 0 } := hopen.quiet ⟨fun _ => ⟨rfl, rfl, rfl, rfl, rfl⟩, rfl, rfl, rfl⟩
      have hsee := hquiet.see seen (fun _ => .inl) fun id' hid' => ?_
      · rw [hc₁]
        exact hsee
      · refine hid'.imp_right ?_
        rintro rfl
        refine ⟨hid, i, ?_⟩
        change ((c.h.setStream i _).streams i).id = id'
        rw [setStream_self]

theorem onHeader_story (hs : Story p k q env past seen 0 0 log h) (hi : Inv env h) {id : Int}
    {name value : Bytes} (hlegal : env.Legal (.header id name value)) :
    Triple (Start m base log h) (onHeader id name value) fun _ c =>
      Story p k q env (past ++ [.header id name value]) seen 0 0 (base ++ c.log) c.h := by
  rintro c ⟨rfl, rfl, hallows⟩
  have hblock : env.block = some id := hlegal
  have hpass : Story p k q env (past ++ [.header id name value]) seen 0 0 (base ++ c.log) c.h :=
    hs.pass nofun
  unfold onHeader
  rw [run_bind, run_get]
  dsimp only
  split
  · exact hpass
  split
  · have hid : id ≠ 0 := fun h0 => hs.zero (h0 ▸ hi.current id hblock)
    have henter : Story p k q env (past ++ [.header id name value]) seen id 0 (base ++ c.log)
        { c.h with headerStream := 0 } :=
      (hs.enter id (fun _ h => h) hs.zero (fun _ _ => Iff.rfl) (fun _ _ => rfl) (by nofun)).header
        (fun id' hid' => Option.some.inj (hid'.symm.trans hblock)) 0
    exact resetStatus_story henter hid 11 _ (m := m) ⟨rfl, rfl, hallows⟩
  · exact hpass.quiet ⟨fun _ => ⟨rfl, rfl, rfl, rfl, rfl⟩, rfl, rfl, rfl⟩

/-- A header block is given up. -/
theorem Story.abandon (hs : Story p k q env past seen 0 0 log h) {id : Int}
    (hlegal : env.Legal (.abandon id)) :
    Story p k q (env.next (.abandon id)) (past ++ [.abandon id]) seen 0 0 log h := by
  have hblock : env.block = some id := hlegal
  have henter : Story p k q (env.next (.abandon id)) (past ++ [.abandon id]) seen id 0 log h := by
    refine hs.enter id (fun _ h => h) hs.zero (fun id' hne => ?_) (fun _ _ => rfl) (by nofun)
    rw [hblock]
    exact ⟨nofun, fun heq => absurd (Option.some.inj heq).symm hne⟩
  refine henter.settle fun hq hok i h0 hi hr => ⟨fun hdone => hs.accepted hq hok i h0 h0 hdone hr,
    nofun, fun _ => .inr ?_, ?_⟩
  · rw [hi]
    exact List.mem_append_right _ List.mem_cons_self
  · rw [payload_concat, hs.whole hq hok i h0 h0 hr]
    exact (List.append_nil _).symm

/-! ## Closing and reading -/

theorem closedStream_story (hs : Story p k q env past seen 0 0 log h) {id : Int} {error : Nat}
    (hlegal : env.Legal (.closed id error)) :
    Triple (Start q base log h) (closedStream id error) fun _ c =>
      Story p k q (env.next (.closed id error)) (past ++ [.closed id error]) seen 0 0 (base ++ c.log)
        c.h := by
  rintro c ⟨rfl, rfl, hallows⟩
  have hid : id ≠ 0 := fun h0 => hs.zero (h0 ▸ hlegal.1)
  have henter : Story p k q (env.next (.closed id error)) (past ++ [.closed id error]) seen 0 0
      (base ++ c.log) c.h :=
    hs.enter 0 (fun _ h => h) hs.zero (fun _ _ => Iff.rfl) (fun _ _ => rfl) (by nofun)
  unfold closedStream
  rw [run_bind, run_get]
  dsimp only
  cases hfind : c.h.findStream id with
  | none => exact henter
  | some i =>
    have hsid := findStream_eq_some hfind
    have h0 : (c.h.streams i).id ≠ 0 := by rw [hsid]; exact hid
    have hseen : seen id := hsid ▸ hs.slot i h0
    have hno : ¬ Closed id (base ++ c.log) := hsid ▸ hs.closed i h0 h0
    have hclosing : Story p k q (env.next (.closed id error)) (past ++ [.closed id error]) seen 0 id
        (base ++ c.log) c.h := { henter with closed := fun j hj _ => henter.closed j hj hj }
    obtain ⟨hstory, ⟨l, heq, heffect⟩, -⟩ := callback_story hclosing (n := .closed id error) {
      active := rfl
      told := fun id' hid' => by
        obtain rfl := Option.some.inj hid'
        exact hseen
      closed := fun id' error' heq => (Note.closed.inj heq).1.symm
      fresh := nofun
      answered := nofun
      holds := nofun
      verdict := nofun
      free := fun _ => trivial
      order := fun _ => hno
      whole := fun _ _ => rfl
      started := fun hq => (List.append_nil _).symm ▸ hclosing.started hq 0
      ended := nofun } nofun c ⟨rfl, rfl, hallows⟩
    obtain ⟨reply, c₁, hrun⟩ : ∃ reply c₁, callback (.closed id error) c = (reply, c₁) := ⟨_, _, rfl⟩
    rw [hrun] at hstory heq heffect
    dsimp only at hstory heq heffect ⊢
    rw [run_bind_eq hrun]
    have hclosed : Closed id (base ++ c₁.log) := by
      obtain ⟨l', rfl, -⟩ := heffect.notes
      exact ⟨error, by rw [heq]; simp⟩
    have hsid₁ : (c₁.h.streams i).id = id := (heffect.stream i).1.trans hsid
    have hempty : ∀ n, Story p k q (env.next (.closed id error)) (past ++ [.closed id error]) seen 0 0
        (base ++ c₁.log) { c₁.h.setStream i {} with
          stats := { c₁.h.stats with activeStreams := n } } := fun n =>
      (hstory.close hsid₁ hclosed).quiet ⟨fun _ => ⟨rfl, rfl, rfl, rfl, rfl⟩, rfl, rfl, rfl⟩
    obtain ⟨n, hn⟩ : ∃ n, n = (c₁.h.stats.activeStreams + 2 ^ 32 - 1) % 2 ^ 32 := ⟨_, rfl⟩
    rw [run_bind_eq (show modifySession _ c₁ = ((), { c₁ with h := { c₁.h.setStream i {} with
      stats := { c₁.h.stats with activeStreams := n } } }) by rw [hn]; rfl)]
    exact hempty n

theorem readResponse_story (hs : Story p k q env past seen 0 0 log h) (hi : Inv env h) {id : Int}
    {capacity : Nat} (hlegal : env.Legal (.read id capacity)) :
    Triple (Start q base log h) (readResponse id capacity) fun _ c =>
      Story p k q env (past ++ [.read id capacity]) seen 0 0 (base ++ c.log) c.h := by
  rintro c ⟨rfl, rfl, hallows⟩
  have hmem : id ∈ env.responses := hlegal
  have hid : id ≠ 0 := fun h0 => hs.zero (h0 ▸ hi.responses id hmem)
  have hpass : Story p k q env (past ++ [.read id capacity]) seen 0 0 (base ++ c.log) c.h :=
    hs.pass nofun
  unfold readResponse
  rw [run_bind, run_get]
  dsimp only
  cases hfind : c.h.findStream id with
  | none => exact hpass
  | some i =>
    have hsid := findStream_eq_some hfind
    have h0 : (c.h.streams i).id ≠ 0 := by rw [hsid]; exact hid
    dsimp only
    by_cases hreset : (c.h.streams i).reset = true
    · rw [if_pos hreset]
      exact hpass
    rw [if_neg hreset]
    obtain ⟨c₁, hc₁⟩ : ∃ c₁ : Ctx, c₁ = { c with
      h := c.h.setStream i { c.h.streams i with deferred := false } } := ⟨_, rfl⟩
    have hstory₁ : Story p k q env (past ++ [.read id capacity]) seen 0 0 (base ++ c.log) c₁.h := by
      rw [hc₁]
      exact hpass.quiet (.setStream c.h rfl rfl rfl rfl rfl)
    have hstart : Start q base (base ++ c.log) c₁.h c₁ := by
      rw [hc₁]
      exact ⟨rfl, rfl, hallows⟩
    rw [run_bind_eq (show modifySession _ c = ((), c₁) by rw [hc₁]; rfl)]
    have hcallback := callback_story hstory₁ (n := .read id (min capacity chunk)) {
      active := rfl
      told := fun id' hid' => by
        obtain rfl := Option.some.inj hid'
        exact hsid ▸ hs.slot i h0
      closed := nofun
      fresh := nofun
      answered := nofun
      holds := nofun
      verdict := nofun
      free := fun _ => trivial
      order := fun _ => by
        refine ⟨?_, fun hr => hreset (hs.reset i (by rwa [hsid])), hsid ▸ hs.closed i h0 h0⟩
        rw [← hsid]
        exact hs.response i (hi.submitted i (by rwa [hsid]))
      whole := fun _ _ => rfl
      started := fun hq => (List.append_nil _).symm ▸ hstory₁.started hq 0
      ended := nofun } nofun c₁ hstart
    obtain ⟨reply, c₂, hrun⟩ : ∃ reply c₂, callback (.read id (min capacity chunk)) c₁ = (reply, c₂) :=
      ⟨_, _, rfl⟩
    rw [hrun] at hcallback
    have hstory := hcallback.1
    rw [run_bind_eq hrun]
    split
    · exact hstory.quiet (.setStream c₂.h rfl rfl rfl rfl rfl)
    · split
      · exact hstory
      · split
        · exact hstory.quiet (.setStream c₂.h rfl rfl rfl rfl rfl)
        · exact hstory

/-! ## Data -/

/-- nghttp2 brings no frame and no data once the session has failed, and no data of a stream after its
end or after its header block was given up; a failure of `cf_h2_receive` or `cf_h2_output` leaves an
error. -/
def Orderly (h : Session) (past : List Event) : Event → Prop
  | .fault _ error => error ≠ .ok
  | .data id _ => h.error = .ok ∧ ¬ Ended id past ∧ .abandon id ∉ past
  | .frame f => h.error = .ok ∧ (f.type = .data → ¬ Ended f.stream past ∧ .abandon f.stream ∉ past)
  | _ => True

instance (h : Session) (past : List Event) : (e : Event) → Decidable (Orderly h past e)
  | .fault _ error => inferInstanceAs (Decidable (error ≠ .ok))
  | .data id _ => inferInstanceAs (Decidable (h.error = .ok ∧ ¬ Ended id past ∧ .abandon id ∉ past))
  | .frame f => inferInstanceAs (Decidable (h.error = .ok ∧
      (f.type = .data → ¬ Ended f.stream past ∧ .abandon f.stream ∉ past)))
  | .clock _ | .output _ | .beginHeaders _ _ | .header _ _ _ | .abandon _ | .closed _ _
  | .sentFrame _ _ | .protocolError _ | .invalidFrame _ _ | .read _ _ | .call _ =>
    inferInstanceAs (Decidable True)

/-- A stream that may be given body bytes: it is accepted, and not reset. -/
structure Ready (id : Int) (i : Fin slots) (log : List Note) (h : Session) : Prop where
  error : h.error = .ok
  reset : (h.streams i).reset = false
  done : (h.streams i).headersDone = true
  accepted : Accepted id log

/-- A stream stays ready while it is told something. -/
theorem Ready.after {id : Int} {i : Fin slots} {n : Note} {rc : Result} {log' : List Note}
    {h' : Session} (hr : Ready id i log h) (hm : m) (ha : After m n log h rc log' h') :
    Ready id i log' h' := by
  obtain ⟨r, hid, hmem⟩ := hr.accepted
  have hacc : Accepted id log' := ⟨r, hid, ha.mem hmem⟩
  obtain ⟨l, -, he⟩ := ha
  obtain ⟨herror, hreset⟩ := he.modest hm
  exact ⟨herror.trans hr.error, (hreset i).trans hr.reset, (he.stream i).2.2.trans hr.done, hacc⟩

/-- What is told about the body of a stream in a slot. -/
theorem apt_data (hs : Story p k q env past seen x 0 log h) {i : Fin slots} (hx : x ≠ 0)
    (hsid : (h.streams i).id = x) (hready : q → Ready x i log h) {bytes : Bytes} {fin : Bool}
    (hend : q → ∀ bytes, .data x bytes true ∉ log)
    (hsize : if fin then bytes = [] else 1 ≤ bytes.length ∧ bytes.length ≤ chunk)
    (hbody : q → received x log ++ (Note.data x bytes fin).bytes x <+: payload x past)
    (hended : fin = true → Ended x past) : Apt p k q past seen x 0 log h (.data x bytes fin) := by
  have h0 : (h.streams i).id ≠ 0 := by rw [hsid]; exact hx
  refine {
    active := rfl
    told := fun id hid => ?_
    closed := nofun
    fresh := nofun
    answered := nofun
    holds := nofun
    verdict := nofun
    free := fun _ => trivial
    order := fun hq => ⟨(hready hq).accepted, hend hq, fun hmem => ?_, ?_, hsize⟩
    whole := fun id hid => ?_
    started := hbody
    ended := fun id bytes' heq => ?_ }
  · obtain rfl := Option.some.inj hid
    exact hsid ▸ hs.slot i h0
  · have hreset := hs.reset i (by rwa [hsid])
    rw [(hready hq).reset] at hreset
    cases hreset
  · exact hsid ▸ hs.closed i h0 h0
  · cases fin with
    | true => rfl
    | false => exact if_neg fun heq => hid heq.symm
  · injection heq with h1 h2 h3
    exact h1 ▸ hended h3

/-- A stream that is ready and has been given all that has arrived. -/
theorem Story.settle_ready (hs : Story p k q env past seen x 0 log h) {i : Fin slots}
    (hsid : (h.streams i).id = x) (hblock : env.block = none)
    (hready : q → Ready x i log h ∧ received x log = payload x past) :
    Story p k q env past seen 0 0 log h := by
  refine hs.settle fun hq _ j h0 hj _ => ?_
  obtain rfl : j = i := hs.distinct j i h0 (hj.trans hsid.symm)
  obtain ⟨hr, hwhole⟩ := hready hq
  rw [hj]
  refine ⟨fun _ => hr.accepted, fun hb => ?_, fun hno => ?_, hwhole⟩
  · rw [hblock] at hb
    cases hb
  · rw [hr.done] at hno
    cases hno

theorem deliver_story (hs : Story p k q env past seen x 0 log h) {i : Fin slots} (hx : x ≠ 0)
    (hsid : (h.streams i).id = x) (hblock : env.block = none) (hend : q → ¬ Ended x past) {fuel : Nat}
    {data : Bytes} (hfuel : data.length ≤ fuel)
    (hready : q → Ready x i log h ∧ received x log ++ data = payload x past) :
    Triple (Start q base log h) (deliver x fuel data) fun _ c =>
      Story p k q env past seen 0 0 (base ++ c.log) c.h := by
  induction fuel generalizing data log h with
  | zero =>
    obtain rfl : data = [] := List.eq_nil_of_length_eq_zero (Nat.le_zero.1 hfuel)
    rintro c ⟨rfl, rfl, -⟩
    have hall := hs.settle_ready hsid hblock fun hq => by simpa using hready hq
    exact hall
  | succ fuel ih =>
    rintro c ⟨rfl, rfl, hallows⟩
    rw [deliver]
    by_cases hnil : data = []
    · rw [if_pos hnil]
      subst hnil
      have hall := hs.settle_ready hsid hblock fun hq => by simpa using hready hq
      exact hall
    rw [if_neg hnil]
    have hpos : 0 < data.length := List.length_pos_iff.2 hnil
    obtain ⟨piece, hpiece⟩ : ∃ piece, piece = data.take (min data.length chunk) := ⟨_, rfl⟩
    have hlength : 1 ≤ piece.length ∧ piece.length ≤ chunk := by
      rw [hpiece, List.length_take]
      unfold chunk
      omega
    have hsplit : piece ++ data.drop (min data.length chunk) = data := by
      rw [hpiece]
      exact List.take_append_drop _ _
    have hbytes : (Note.data x piece false).bytes x = piece := if_pos rfl
    have hbody : q → received x (base ++ c.log) ++ (Note.data x piece false).bytes x <+:
        payload x past := by
      intro hq
      rw [hbytes, ← (hready hq).2, ← hsplit, ← List.append_assoc]
      exact List.prefix_append _ _
    have hapt : Apt p k q past seen x 0 (base ++ c.log) c.h (.data x piece false) :=
      apt_data hs hx hsid (fun hq => (hready hq).1)
        (fun hq bytes hmem => hend hq (hs.ended hq x bytes hmem)) hlength hbody nofun
    have hcallback := callback_story hs hapt nofun c ⟨rfl, rfl, hallows⟩
    rw [← hpiece]
    obtain ⟨reply, c₁, hrun⟩ : ∃ reply c₁, callback (.data x piece false) c = (reply, c₁) := ⟨_, _, rfl⟩
    rw [hrun] at hcallback
    obtain ⟨hstory, hafter, hallows₁⟩ := hcallback
    dsimp only at hstory hafter hallows₁
    rw [run_bind_eq hrun]
    split
    · exact reset_story hstory hx 8 c₁ (m := q) ⟨rfl, rfl, hallows₁⟩
    · have hsid₁ : (c₁.h.streams i).id = x := by
        obtain ⟨l, -, he⟩ := hafter
        exact (he.stream i).1.trans hsid
      have hless : (data.drop (min data.length chunk)).length ≤ fuel := by
        rw [List.length_drop]
        have hchunk : 0 < min data.length chunk := Nat.lt_min.2 ⟨hpos, by simp⟩
        omega
      refine ih hstory hsid₁ hless (fun hq => ⟨(hready hq).1.after hq hafter, ?_⟩) c₁
        ⟨rfl, rfl, hallows₁⟩
      rw [hafter.received, hbytes, List.append_assoc, hsplit]
      exact (hready hq).2

/-- The stream has a slot, is not reset, and no header block of it is being received. -/
theorem Story.ready (hs : Story p k q env past seen 0 0 log h) {i : Fin slots}
    (h0 : (h.streams i).id ≠ 0) (hreset : (h.streams i).reset = false) (hblock : env.block = none)
    (hq : q) (hok : h.error = .ok) (hno : .abandon (h.streams i).id ∉ past) :
    Ready (h.streams i).id i log h := by
  have hdone : (h.streams i).headersDone = true := by
    by_contra hwait
    rcases hs.waiting hq hok i h0 h0 (by simpa using hwait) hreset with hb | hb
    · rw [hblock] at hb
      cases hb
    · exact hno hb
  exact ⟨hok, hreset, hdone, hs.accepted hq hok i h0 h0 hdone hreset⟩

theorem ended_concat {id : Int} {e : Event} :
    Ended id (past ++ [e]) ↔ Ended id past ∨ e.last id = true := by
  constructor
  · rintro ⟨e', hmem, hlast⟩
    rcases List.mem_append.1 hmem with hmem | hmem
    · exact .inl ⟨e', hmem, hlast⟩
    · rw [List.mem_singleton.1 hmem] at hlast
      exact .inr hlast
  · rintro (⟨e', hmem, hlast⟩ | hlast)
    · exact ⟨e', List.mem_append_left _ hmem, hlast⟩
    · exact ⟨e, List.mem_append_right _ List.mem_cons_self, hlast⟩

/-- Nothing is left open for a stream without a slot, or with a slot that is reset. -/
theorem Story.settle_idle (hs : Story p k q env past seen x 0 log h) (hx : x ≠ 0)
    (hidle : ∀ i, h.findStream x = some i → (h.streams i).reset = true) :
    Story p k q env past seen 0 0 log h := by
  refine hs.settle_reset fun i hi => .inl ?_
  cases hfind : h.findStream x with
  | none => exact absurd hi (findStream_eq_none hfind i)
  | some j =>
    have hj := findStream_eq_some hfind
    obtain rfl : i = j := hs.distinct i j (by rw [hi]; exact hx) (hi.trans hj.symm)
    exact hidle i hfind

theorem receivedData_story (hs : Story p k q env past seen 0 0 log h) {id : Int} {data : Bytes}
    (hlegal : env.Legal (.data id data)) (horder : q → Orderly h past (.data id data)) :
    Triple (Start q base log h) (receivedData id data) fun _ c =>
      Story p k q env (past ++ [.data id data]) seen 0 0 (base ++ c.log) c.h := by
  obtain ⟨hblock, hmem⟩ := hlegal
  rintro c ⟨rfl, rfl, hallows⟩
  have hid : id ≠ 0 := fun h0 => hs.zero (h0 ▸ hmem)
  have henter : Story p k q env (past ++ [.data id data]) seen id 0 (base ++ c.log) c.h := by
    refine hs.enter id (fun _ h => h) hs.zero (fun _ _ => Iff.rfl)
      (fun id' hne => if_neg fun heq => hne heq.symm) fun id' bytes heq => ?_
    rw [← (Event.data.inj heq).1]
    exact hmem
  unfold receivedData
  rw [run_bind, run_get]
  dsimp only
  cases hfind : c.h.findStream id with
  | none => exact henter.settle_idle hid fun i hi => by rw [hfind] at hi; cases hi
  | some i =>
    have hsid := findStream_eq_some hfind
    have h0 : (c.h.streams i).id ≠ 0 := by rw [hsid]; exact hid
    dsimp only
    by_cases hreset : (c.h.streams i).reset = true
    · rw [if_pos hreset]
      refine henter.settle_idle hid fun j hj => ?_
      rw [hfind] at hj
      rwa [← Option.some.inj hj]
    rw [if_neg hreset]
    have hend : q → ¬ Ended id (past ++ [.data id data]) := by
      intro hq hended
      exact (horder hq).2.1 ((ended_concat.1 hended).resolve_right nofun)
    have hready : q → Ready id i (base ++ c.log) c.h ∧
        received id (base ++ c.log) ++ data = payload id (past ++ [.data id data]) := by
      intro hq
      obtain ⟨hok, -, hno⟩ := horder hq
      have hr := hs.ready h0 (by simpa using hreset) hblock hq hok (by rwa [hsid])
      have hwhole := hs.whole hq hok i h0 h0 (by simpa using hreset)
      rw [hsid] at hr hwhole
      refine ⟨hr, ?_⟩
      rw [payload_concat, ← hwhole]
      exact congrArg _ (if_pos rfl).symm
    have hstory := deliver_story henter hid hsid hblock hend le_rfl hready c ⟨rfl, rfl, hallows⟩
    obtain ⟨ok, c₁, hrun⟩ : ∃ ok c₁, deliver id data.length data c = (ok, c₁) := ⟨_, _, rfl⟩
    rw [hrun] at hstory
    rw [run_bind_eq hrun]
    cases ok with
    | false => exact hstory
    | true => exact hstory.quiet (.setStream c₁.h rfl rfl rfl rfl rfl)

/-! ## Frames -/

theorem endOfStream_story (hs : Story p k q env past seen x 0 log h) {i : Fin slots} (hx : x ≠ 0)
    (hsid : (h.streams i).id = x) (hblock : env.block = none) {f : Frame} (hf : .frame f ∈ past)
    (hfx : f.stream = x)
    (hready : q → Ready x i log h ∧ received x log = payload x past ∧
      ∀ bytes, .data x bytes true ∉ log) :
    Triple (Start q base log h) (endOfStream i f) fun _ c =>
      Story p k q env past seen 0 0 (base ++ c.log) c.h := by
  rintro c ⟨rfl, rfl, hallows⟩
  have hsettle := hs.settle_ready hsid hblock fun hq => ⟨(hready hq).1, (hready hq).2.1⟩
  unfold endOfStream
  by_cases hend : (f.type = .headers ∨ f.type = .data) ∧ f.endStream = true
  · rw [if_pos hend, run_bind, run_get]
    dsimp only
    rw [hsid]
    have hended : Ended x past := ⟨_, hf, decide_eq_true ⟨hfx, hend⟩⟩
    have hbody : q → received x (base ++ c.log) ++ (Note.data x [] true).bytes x <+: payload x past := by
      intro hq
      rw [show (Note.data x [] true).bytes x = [] from rfl, List.append_nil]
      exact hs.started hq x
    have hapt : Apt p k q past seen x 0 (base ++ c.log) c.h (.data x [] true) :=
      apt_data hs hx hsid (fun hq => (hready hq).1) (fun hq => (hready hq).2.2) rfl hbody
        fun _ => hended
    have hcallback := callback_story hs hapt nofun c ⟨rfl, rfl, hallows⟩
    obtain ⟨reply, c₁, hrun⟩ : ∃ reply c₁, callback (.data x [] true) c = (reply, c₁) := ⟨_, _, rfl⟩
    rw [hrun] at hcallback
    obtain ⟨hstory, hafter, hallows₁⟩ := hcallback
    dsimp only at hstory hafter hallows₁
    rw [run_bind_eq hrun]
    split
    · exact resetStatus_story hstory hx 8 c₁ (m := q) ⟨rfl, rfl, hallows₁⟩
    · have hsid₁ : (c₁.h.streams i).id = x := by
        obtain ⟨l, -, he⟩ := hafter
        exact (he.stream i).1.trans hsid
      refine hstory.settle_ready hsid₁ hblock fun hq => ⟨(hready hq).1.after hq hafter, ?_⟩
      rw [hafter.received]
      exact (List.append_nil _).trans (hready hq).2.1
  · rw [if_neg hend]
    exact hsettle

/-- A slot whose headers are not done counts for nothing, before and after its kind is known. -/
theorem count_setKind {i : Fin slots} (hdone : (h.streams i).headersDone = false) (kind kind' : Kind) :
    (h.setStream i { h.streams i with kind }).count kind' = h.count kind' := by
  obtain ⟨s, hs⟩ : ∃ s : Stream, s = { h.streams i with kind } := ⟨_, rfl⟩
  have hcount := Table.tally_update (·.admitted kind') h.streams i s
  have hbefore : (h.streams i).admitted kind' = false := by simp [Stream.admitted, hdone]
  have hafter : s.admitted kind' = false := by simp [hs, Stream.admitted, hdone]
  rw [hbefore, hafter] at hcount
  rw [← hs]
  exact hcount

theorem held_setKind {i : Fin slots} (hdone : (h.streams i).headersDone = false) (kind : Kind)
    (log : List Note) : (h.setStream i { h.streams i with kind }).held log ≤ h.held log := by
  refine Table.tally_update_le fun hyes => ?_
  rw [decide_eq_true_eq, hdone] at hyes
  cases hyes.1

/-- One more slot is held after its headers are done, and only by an HTTP stream. -/
theorem held_setDone {i : Fin slots} (log : List Note) :
    (h.setStream i { h.streams i with headersDone := true }).held log ≤
      h.held log + if (h.streams i).kind = .http then 1 else 0 := by
  by_cases hkind : (h.streams i).kind = .http
  · rw [if_pos hkind]
    have hheld := Table.tally_update (fun s : Stream => decide (s.headersDone = true ∧ s.kind = .http ∧
      s.id ∉ log.filterMap Note.refused)) h.streams i { h.streams i with headersDone := true }
    change Table.tally _ (Function.update h.streams i _) ≤ Table.tally _ h.streams + 1
    split at hheld <;> split at hheld <;> omega
  · rw [if_neg hkind]
    refine Table.tally_update_le fun hyes => ?_
    exact absurd (of_decide_eq_true hyes).2.1 hkind

/-- The request is the first that the application hears of its stream. -/
theorem apt_request (hs : Story p k q env past seen x 0 log h) {i : Fin slots} {h' : Session} (hx : x ≠ 0)
    (hsid : (h.streams i).id = x) (hdone : (h.streams i).headersDone = false)
    (hreset : (h.streams i).reset = false) (hs' : Story p k q env past seen x 0 log h')
    (hsid' : (h'.streams i).id = x) (hdone' : (h'.streams i).headersDone = true) {r : Request}
    (hr : r.stream = x) (hfree : p → r.kind = .http → (openRequests log).length < k) :
    Apt p k q past seen x 0 log h' (.request r) := by
  have h0 : (h.streams i).id ≠ 0 := by rw [hsid]; exact hx
  refine {
    active := rfl
    told := fun id hid => ?_
    closed := nofun
    fresh := fun r' heq j hj hno hjr => ?_
    answered := nofun
    holds := nofun
    verdict := nofun
    free := hfree
    order := fun _ => ⟨fun r' hmem => ?_, fun hmem => ?_, ?_⟩
    whole := fun _ _ => rfl
    started := fun hq => (List.append_nil _).symm ▸ hs.started hq x
    ended := nofun }
  · obtain rfl := Option.some.inj hid
    rw [hr, ← hsid]
    exact hs.slot i h0
  · obtain rfl := Note.request.inj heq
    obtain rfl : j = i := hs'.distinct j i hj (hjr.symm.trans (hr.trans hsid'.symm))
    rw [hdone'] at hno
    cases hno
  · rw [hr, ← hsid]
    exact hs.fresh i h0 hdone r' hmem
  · rw [hr, ← hsid] at hmem
    rw [hs.reset i hmem] at hreset
    cases hreset
  · rw [hr, ← hsid]
    exact hs.closed i h0 h0

/-- The kind of a stream whose headers are not done means nothing yet. -/
theorem Story.setKind (hs : Story p k q env past seen x 0 log h) {i : Fin slots}
    (hsid : (h.streams i).id = x) (hdone : (h.streams i).headersDone = false) (kind : Kind) :
    Story p k q env past seen x 0 log (h.setStream i { h.streams i with kind }) :=
  hs.advance rfl rfl rfl hsid hdone fun hp => (held_setKind hdone kind _).trans (hs.room hp)

/-- The headers of a stream are done, with room for it if it is an HTTP stream. -/
theorem Story.setDone (hs : Story p k q env past seen x 0 log h) {i : Fin slots}
    (hsid : (h.streams i).id = x) (hdone : (h.streams i).headersDone = false)
    (hfree : p → (h.streams i).kind = .http → h.held log < k) :
    Story p k q env past seen x 0 log (h.setStream i { h.streams i with headersDone := true }) := by
  refine hs.advance rfl rfl rfl hsid hdone fun hp => ?_
  have hmore := held_setDone (h := h) (i := i) log
  have hold := hs.room hp
  split at hmore
  · next hhttp =>
    have hless := hfree hp hhttp
    omega
  · omega

/-- The application is asked about a stream whose headers are done, and that it has not heard of. -/
theorem request_story (hs : Story p k q env past seen x 0 log h) {i : Fin slots} {h' : Session} (hx : x ≠ 0)
    (hsid : (h.streams i).id = x) (hdone : (h.streams i).headersDone = false)
    (hreset : (h.streams i).reset = false) (hs' : Story p k q env past seen x 0 log h') {r : Request}
    (hr : r.stream = x) (hslot : h'.streams i = { h.streams i with kind := r.kind, headersDone := true })
    (hfree : p → r.kind = .http → h.held log < k) :
    Triple (Start q base log h') (callback (.request r)) fun reply c =>
      Story p k q env past seen x 0 (base ++ c.log) c.h ∧
        After q (.request r) log h' reply.result (base ++ c.log) c.h ∧ c.oracle.Allows q := by
  have hsid' : (h'.streams i).id = x := by rw [hslot]; exact hsid
  have hapt : Apt p k q past seen x 0 log h' (.request r) :=
    apt_request hs hx hsid hdone hreset hs' hsid' (by rw [hslot]) hr fun hp hk =>
      lt_of_le_of_lt hs.length_openRequests (hfree hp hk)
  refine callback_story hs' hapt fun r' heq => ?_
  obtain rfl := Note.request.inj heq
  refine ⟨⟨i, hsid'.trans hr.symm, by rw [hslot], by rw [hslot]⟩, fun r' rc hmem => ?_⟩
  have hfresh := hs.fresh i (by rw [hsid]; exact hx) hdone r' (hs.answered _ rc hmem)
  rwa [hr, ← hsid]

/-- A stream is ready for its body once its request is accepted. -/
theorem After.ready {r : Request} {i : Fin slots} {log' : List Note} {h' : Session}
    (ha : After m (.request r) log h .ok log' h') (hm : m) (hok : h.error = .ok)
    (hreset : (h.streams i).reset = false) (hdone : (h.streams i).headersDone = true) :
    Ready r.stream i log' h' := by
  obtain ⟨l, rfl, he⟩ := ha
  obtain ⟨herror, hreset'⟩ := he.modest hm
  exact ⟨herror.trans hok, (hreset' i).trans hreset, (he.stream i).2.2.trans hdone, r, rfl,
    List.mem_append_right _ List.mem_cons_self⟩

/-- After a header block its stream is reset, or it has been accepted and goes on. -/
theorem headerBlock_story (hs : Story p k q env past seen x 0 log h) {i : Fin slots} (hx : x ≠ 0)
    (hsid : (h.streams i).id = x) (hdone : (h.streams i).headersDone = false)
    (hreset : (h.streams i).reset = false) (hblock : env.block = none)
    (hroom : p → classify h.headers = some .http → h.count .http < h.appLimit →
      h.held log < h.appLimit)
    (hwhole : q → h.error = .ok ∧ received x log = payload x past ∧ ∀ bytes, .data x bytes true ∉ log)
    (endStream : Bool) :
    Triple (Start q base log h) (headerBlock i endStream) fun result c =>
      (result ≠ none → Story p k q env past seen 0 0 (base ++ c.log) c.h) ∧
        (result = none → Story p k q env past seen x 0 (base ++ c.log) c.h ∧ (c.h.streams i).id = x ∧
          c.oracle.Allows q ∧ (q → Ready x i (base ++ c.log) c.h ∧
            received x (base ++ c.log) = payload x past ∧
            ∀ bytes, .data x bytes true ∉ base ++ c.log)) := by
  rintro c ⟨rfl, rfl, hallows⟩
  unfold headerBlock
  rw [run_bind, run_get]
  dsimp only
  rw [hsid]
  have hrefuse : ∀ {log h c₁}, Story p k q env past seen x 0 log h → Start q base log h c₁ →
      Story p k q env past seen 0 0 (base ++ (resetStatus x 7 c₁).2.log) (resetStatus x 7 c₁).2.h :=
    fun hs hc => resetStatus_story hs hx 7 _ hc
  cases hclass : classify c.h.headers with
  | none => exact ⟨fun _ => hrefuse hs ⟨rfl, rfl, hallows⟩, nofun⟩
  | some kind =>
    dsimp only
    obtain ⟨c₁, hc₁⟩ : ∃ c₁ : Ctx, c₁ = { c with
      h := c.h.setStream i { c.h.streams i with kind } } := ⟨_, rfl⟩
    have hs₁ : c₁.h.streams i = { c.h.streams i with kind } := by rw [hc₁, setStream_self]
    have hstory₁ : Story p k q env past seen x 0 (base ++ c.log) c₁.h := by
      rw [hc₁]
      exact hs.setKind hsid hdone kind
    have hstart₁ : Start q base (base ++ c.log) c₁.h c₁ := by
      rw [hc₁]
      exact ⟨rfl, rfl, hallows⟩
    rw [run_bind_eq (show modifySession _ c = ((), c₁) by rw [hc₁]; rfl), run_bind, run_get]
    dsimp only
    by_cases hfull : c₁.h.count kind ≥ c₁.h.limit kind
    · rw [if_pos hfull]
      exact ⟨fun _ => hrefuse hstory₁ hstart₁, nofun⟩
    rw [if_neg hfull]
    -- An HTTP stream that passes the count takes a slot that was not held.
    have hfree : p → kind = .http → c.h.held (base ++ c.log) < k := by
      rintro hp rfl
      rw [← hs.limit]
      refine hroom hp hclass ?_
      have hcount : c₁.h.count .http = c.h.count .http := by rw [hc₁]; exact count_setKind hdone .http .http
      have hlimit : c₁.h.limit .http = c.h.appLimit := by rw [hc₁]; rfl
      rw [hcount, hlimit] at hfull
      omega
    obtain ⟨c₂, hc₂⟩ : ∃ c₂ : Ctx, c₂ = { c₁ with
      h := c₁.h.setStream i { c₁.h.streams i with headersDone := true } } := ⟨_, rfl⟩
    have hs₂ : c₂.h.streams i = { c.h.streams i with kind, headersDone := true } := by
      rw [hc₂, setStream_self, hs₁]
    have hstory₂ : Story p k q env past seen x 0 (base ++ c.log) c₂.h := by
      rw [hc₂]
      refine hstory₁.setDone (by rw [hs₁]; exact hsid) (by rw [hs₁]; exact hdone) fun hp hhttp => ?_
      have hheld : c₁.h.held (base ++ c.log) ≤ c.h.held (base ++ c.log) := by
        rw [hc₁]
        exact held_setKind hdone kind _
      rw [hs₁] at hhttp
      exact lt_of_le_of_lt hheld (hfree hp hhttp)
    obtain ⟨r, hr⟩ : ∃ r : Request, r = ⟨x, kind, c₁.h.headers, endStream⟩ := ⟨_, rfl⟩
    have hstart₂ : Start q base (base ++ c.log) c₂.h c₂ := by
      rw [hc₂, hc₁]
      exact ⟨rfl, rfl, hallows⟩
    have hcallback := request_story hs hx hsid hdone hreset hstory₂ (r := r) (by rw [hr])
      (by rw [hs₂, hr]) (fun hp hk => hfree hp (by rwa [hr] at hk)) c₂ hstart₂
    rw [run_bind_eq (show modifySession _ c₁ = ((), c₂) by rw [hc₂]; rfl), ← hr]
    obtain ⟨reply, c₃, hrun⟩ : ∃ reply c₃, callback (.request r) c₂ = (reply, c₃) := ⟨_, _, rfl⟩
    rw [hrun] at hcallback
    obtain ⟨hstory₃, hafter, hallows₃⟩ := hcallback
    dsimp only at hstory₃ hafter hallows₃
    rw [run_bind_eq hrun]
    by_cases hrc : reply.result ≠ .ok
    · rw [if_pos hrc]
      exact ⟨fun _ => hrefuse hstory₃ ⟨rfl, rfl, hallows₃⟩, nofun⟩
    rw [if_neg hrc]
    rw [not_not.1 hrc] at hafter
    refine ⟨fun hne => absurd rfl hne, fun _ => ⟨?_, ?_, hallows₃, fun hq => ?_⟩⟩
    · exact (hstory₃.header (fun id hid => by rw [hblock] at hid; cases hid) 0).quiet
        ⟨fun _ => ⟨rfl, rfl, rfl, rfl, rfl⟩, rfl, rfl, rfl⟩
    · obtain ⟨l, -, he⟩ := hafter
      exact (he.stream i).1.trans (by rw [hs₂]; exact hsid)
    · obtain ⟨hok, hwhole, hend⟩ := hwhole hq
      have hready : Ready x i (base ++ c₃.log) c₃.h := by
        have hready := hafter.ready hq (by rw [hc₂, hc₁]; exact hok) (by rw [hs₂]; exact hreset) (by rw [hs₂])
        rwa [hr] at hready
      have hreceived := hafter.received x
      refine ⟨⟨hready.error, hready.reset, hready.done, hready.accepted⟩, ?_, fun bytes hmem => ?_⟩
      · change received x (base ++ c₃.log) = payload x past
        rw [hreceived]
        exact (List.append_nil _).trans hwhole
      · exact hend bytes (hafter.of_mem hmem rfl nofun nofun)

/-- The event completes a header block of an HTTP stream, which will pass the admission count. -/
def Session.admits (h : Session) : Event → Bool
  | .frame f => f.type = .headers ∧ h.headerStream = f.stream ∧
      (h.findStream f.stream).any (fun i => !(h.streams i).reset) ∧
      classify h.headers = some .http ∧ h.count .http < h.appLimit
  | _ => false

/-- Nothing has been said of the body of a stream whose headers are not done. -/
theorem Story.no_data (hs : Story p k q env past seen x y log h) (hq : q) {i : Fin slots}
    (h0 : (h.streams i).id ≠ 0) (hdone : (h.streams i).headersDone = false) (bytes : Bytes) (fin : Bool) :
    .data (h.streams i).id bytes fin ∉ log := by
  intro hmem
  obtain ⟨before, after, rfl, hallowed⟩ := (hs.order hq).mem hmem
  obtain ⟨⟨r, hr, hreturned⟩, -⟩ := hallowed
  exact hs.fresh i h0 hdone r (hs.answered _ _ (List.mem_append_left _ hreturned)) hr

/-- The frame ends the block that was open, or is data between blocks. -/
theorem Env.next_frame {f : Frame} (hlegal : env.Legal (.frame f)) :
    (env.next (.frame f)).opened = env.opened ∧
      (f.type = .headers ∨ f.type = .data → (env.next (.frame f)).block = none) := by
  have hl : if f.type = .headers then env.block = some f.stream
      else env.block = none ∧ (f.type = .data → f.stream ∈ env.opened) := hlegal
  by_cases ht : f.type = .headers
  · rw [show env.next (.frame f) = { env with block := none } from if_pos ht]
    exact ⟨rfl, fun _ => rfl⟩
  · rw [show env.next (.frame f) = env from if_neg ht]
    rw [if_neg ht] at hl
    exact ⟨rfl, fun _ => hl.1⟩

/-- What a frame says about its stream may be true before its callbacks are. -/
theorem Story.enterFrame (hs : Story p k q env past seen 0 0 log h) {f : Frame}
    (htype : f.type = .headers ∨ f.type = .data) (hlegal : env.Legal (.frame f)) :
    Story p k q (env.next (.frame f)) (past ++ [.frame f]) seen f.stream 0 log h := by
  obtain ⟨hopened, hblock⟩ := Env.next_frame hlegal
  have hl : if f.type = .headers then env.block = some f.stream
      else env.block = none ∧ (f.type = .data → f.stream ∈ env.opened) := hlegal
  refine hs.enter f.stream (by rw [hopened]; exact fun _ h => h) (by rw [hopened]; exact hs.zero)
    (fun id hne => ?_) (fun _ _ => rfl) (by nofun)
  rw [hblock htype]
  refine ⟨nofun, fun hb => ?_⟩
  by_cases ht : f.type = .headers
  · rw [if_pos ht, hb] at hl
    exact absurd (Option.some.inj hl) hne
  · rw [if_neg ht, hb] at hl
    cases hl.1

/-- A frame that does not end a header block comes to a stream that is ready. -/
theorem Story.readyFrame (hs : Story p k q env past seen 0 0 log h) {f : Frame} {i : Fin slots}
    (htype : f.type = .headers ∨ f.type = .data) (hlegal : env.Legal (.frame f))
    (hsid : (h.streams i).id = f.stream) (h0 : (h.streams i).id ≠ 0) (hnot : (h.streams i).reset = false)
    (hhead : ¬ (f.type = .headers ∧ h.headerStream = f.stream)) (hq : q)
    (horder : Orderly h past (.frame f)) :
    Ready f.stream i log h ∧ ∀ bytes, .data f.stream bytes true ∉ log := by
  obtain ⟨hok, hdata⟩ := horder
  have hl : if f.type = .headers then env.block = some f.stream
      else env.block = none ∧ (f.type = .data → f.stream ∈ env.opened) := hlegal
  rcases htype with htype | htype
  · -- The header block would have been the one that is being received.
    refine absurd ⟨htype, ?_⟩ hhead
    rw [if_pos htype] at hl
    have hcur := hs.current hq hok i h0 h0 hnot (by rw [hsid]; exact hl)
    rw [hcur, hsid]
  · obtain ⟨hend, hno⟩ := hdata htype
    rw [if_neg (by rw [htype]; exact nofun)] at hl
    have hready := hs.ready h0 hnot hl.1 hq hok (by rwa [hsid])
    rw [hsid] at hready
    exact ⟨hready, fun bytes hmem => hend (hs.ended hq _ bytes hmem)⟩

/-- A frame of a stream: the end of its header block, or of its data. -/
theorem streamFrame_story (hs : Story p k q env past seen 0 0 log h) (hi : Inv env h) {f : Frame}
    (htype : f.type = .headers ∨ f.type = .data) (hlegal : env.Legal (.frame f))
    (horder : q → Orderly h past (.frame f))
    (hroom : p → h.admits (.frame f) = true → h.held log < h.appLimit) :
    Triple (Start q base log h) (receivedFrame f) fun _ c =>
      Story p k q (env.next (.frame f)) (past ++ [.frame f]) seen 0 0 (base ++ c.log) c.h := by
  have hl : if f.type = .headers then env.block = some f.stream
      else env.block = none ∧ (f.type = .data → f.stream ∈ env.opened) := hlegal
  have hmem : f.stream ∈ env.opened := by
    rcases htype with htype | htype
    · rw [if_pos htype] at hl
      exact hi.current f.stream hl
    · rw [if_neg (by rw [htype]; exact nofun)] at hl
      exact hl.2 htype
  have hx : f.stream ≠ 0 := fun h0 => hs.zero (h0 ▸ hmem)
  have henter := hs.enterFrame htype hlegal
  have hblock := (Env.next_frame hlegal).2 htype
  generalize env.next (.frame f) = env' at henter hblock ⊢
  rintro c ⟨rfl, rfl, hallows⟩
  obtain ⟨c₁, hc₁⟩ : ∃ c₁ : Ctx, c₁ = { c with
    h := { c.h with stats := c.h.stats.frame f.type } } := ⟨_, rfl⟩
  have hstreams : c₁.h.streams = c.h.streams := by rw [hc₁]
  have hstory : Story p k q env' (past ++ [.frame f]) seen f.stream 0 (base ++ c.log) c₁.h := by
    rw [hc₁]
    exact henter.quiet ⟨fun _ => ⟨rfl, rfl, rfl, rfl, rfl⟩, rfl, rfl, rfl⟩
  have hstart : Start q base (base ++ c.log) c₁.h c₁ := by
    rw [hc₁]
    exact ⟨rfl, rfl, hallows⟩
  have hfind : c.h.findStream f.stream = c₁.h.findStream f.stream := by
    rw [hc₁]
    rfl
  have hlog : c₁.log = c.log := by rw [hc₁]
  unfold receivedFrame
  rw [run_bind, run_get]
  dsimp only
  rw [run_bind_eq (show modifySession _ c = ((), c₁) by rw [hc₁]; rfl), hfind]
  cases hs₁ : c₁.h.findStream f.stream with
  | none =>
    have hidle := hstory.settle_idle hx fun i hi => by rw [hs₁] at hi; cases hi
    rw [← hlog] at hidle
    exact hidle
  | some i =>
    have hsid₁ := findStream_eq_some hs₁
    have hsid : (c.h.streams i).id = f.stream := by rwa [← hstreams]
    have h0 : (c.h.streams i).id ≠ 0 := by rw [hsid]; exact hx
    dsimp only
    rw [run_bind, run_get]
    dsimp only
    by_cases hreset : (c₁.h.streams i).reset = true
    · rw [if_pos hreset]
      have hidle := hstory.settle_idle hx fun j hj => by
        rw [hs₁] at hj
        rwa [← Option.some.inj hj]
      rw [← hlog] at hidle
      exact hidle
    rw [if_neg hreset]
    have hnot : (c.h.streams i).reset = false := by
      rw [← hstreams]
      simpa using hreset
    have hwhole : q → received f.stream (base ++ c.log) = payload f.stream (past ++ [.frame f]) := by
      intro hq
      have hw := hs.whole hq (horder hq).1 i h0 h0 hnot
      rw [hsid] at hw
      rw [payload_concat, hw]
      exact (List.append_nil _).symm
    by_cases hhead : f.type = .headers ∧ c₁.h.headerStream = f.stream
    · rw [if_pos hhead]
      have hblock₀ : env.block = some f.stream := by rwa [if_pos hhead.1] at hl
      have hheader : c.h.headerStream = f.stream := by
        rw [← hhead.2, hc₁]
      have hdone : (c.h.streams i).headersDone = false :=
        hi.block i (by rw [hsid]; exact hblock₀) (by rw [hsid]; exact hheader)
      have hadmit : p → classify c₁.h.headers = some .http → c₁.h.count .http < c₁.h.appLimit →
          c₁.h.held (base ++ c.log) < c₁.h.appLimit := by
        rw [hc₁]
        intro hp hclass hcount
        refine hroom hp (decide_eq_true ⟨hhead.1, hheader, ?_, hclass, hcount⟩)
        rw [hfind, hs₁]
        simp [hnot]
      have hq₁ : q → c₁.h.error = .ok ∧ received f.stream (base ++ c.log) =
          payload f.stream (past ++ [.frame f]) ∧ ∀ bytes, .data f.stream bytes true ∉ base ++ c.log := by
        intro hq
        refine ⟨?_, hwhole hq, fun bytes => ?_⟩
        · rw [hc₁]
          exact (horder hq).1
        · rw [← hsid]
          exact hs.no_data hq h0 hdone bytes true
      have hpart := headerBlock_story hstory hx hsid₁ (by rw [hstreams]; exact hdone)
        (by rw [hstreams]; exact hnot) hblock hadmit hq₁ f.endStream c₁ hstart
      obtain ⟨result, c₂, hrun⟩ : ∃ result c₂, headerBlock i f.endStream c₁ = (result, c₂) :=
        ⟨_, _, rfl⟩
      rw [hrun] at hpart
      dsimp only at hpart
      rw [run_bind_eq hrun]
      cases result with
      | some status => exact hpart.1 nofun
      | none =>
        obtain ⟨hstory₂, hsid₂, hallows₂, hready⟩ := hpart.2 rfl
        exact endOfStream_story hstory₂ hx hsid₂ hblock
          (List.mem_append_right _ List.mem_cons_self) rfl hready c₂ ⟨rfl, rfl, hallows₂⟩
    · rw [if_neg hhead]
      refine endOfStream_story hstory hx hsid₁ hblock (List.mem_append_right _ List.mem_cons_self) rfl
        (fun hq => ?_) c₁ hstart
      obtain ⟨hready, hend⟩ := hs.readyFrame htype hlegal hsid h0 hnot (by rwa [hc₁] at hhead) hq (horder hq)
      refine ⟨⟨?_, ?_, ?_, hready.accepted⟩, hwhole hq, hend⟩
      · rw [hc₁]
        exact hready.error
      · rw [hstreams]
        exact hnot
      · rw [hstreams]
        exact hready.done

theorem receivedFrame_story (hs : Story p k q env past seen 0 0 log h) (hi : Inv env h) {f : Frame}
    (hlegal : env.Legal (.frame f)) (horder : q → Orderly h past (.frame f))
    (hroom : p → h.admits (.frame f) = true → h.held log < h.appLimit) :
    Triple (Start q base log h) (receivedFrame f) fun _ c =>
      Story p k q (env.next (.frame f)) (past ++ [.frame f]) seen 0 0 (base ++ c.log) c.h := by
  by_cases htype : f.type = .headers ∨ f.type = .data
  · exact streamFrame_story hs hi htype hlegal horder hroom
  rintro c ⟨rfl, rfl, -⟩
  rw [show env.next (.frame f) = env from if_neg fun ht => htype (.inl ht)]
  have hpass : Story p k q env (past ++ [.frame f]) seen 0 0 (base ++ c.log)
      { c.h with stats := c.h.stats.frame f.type } :=
    (hs.pass (by nofun)).quiet ⟨fun _ => ⟨rfl, rfl, rfl, rfl, rfl⟩, rfl, rfl, rfl⟩
  unfold receivedFrame
  rw [run_bind, run_get]
  dsimp only
  rw [run_bind]
  cases c.h.findStream f.stream with
  | none => exact hpass
  | some i =>
    dsimp only
    rw [run_bind, run_get]
    dsimp only
    split
    · exact hpass
    · rw [if_neg fun h => htype (.inl h.1)]
      unfold endOfStream
      rw [if_neg fun h => htype h.1]
      exact hpass

/-! ## Events and runs -/

/-- Whatever happens next, slots and history agree after it. -/
theorem Event.story (hs : Story p k q env past seen 0 0 log h) (hi : Inv env h) {e : Event}
    (hlegal : env.Legal e) (hv : e.Valid) (horder : q → Orderly h past e)
    (hroom : p → h.admits e = true → h.held log < h.appLimit) :
    Triple (Start q base log h) e.run fun _ c =>
      Story p k q (env.next e) (past ++ [e]) (Seen seen c.h) 0 0 (base ++ c.log) c.h := by
  intro c hc
  have hquiet : (∀ id bytes, e ≠ .data id bytes) → ∀ h', Quiet c.h h' →
      Story p k q env (past ++ [e]) (Seen seen h') 0 0 (base ++ c.log) h' := by
    intro hne h' hq
    obtain ⟨rfl, rfl, -⟩ := hc
    exact ((hs.pass hne).quiet hq).same
  cases e with
  | clock now => exact hquiet nofun _ ⟨fun _ => ⟨rfl, rfl, rfl, rfl, rfl⟩, rfl, rfl, rfl⟩
  | fault code error =>
    obtain ⟨rfl, rfl, -⟩ := hc
    have hpass : Story p k q env (past ++ [.fault code error]) seen 0 0 (base ++ c.log) c.h := hs.pass nofun
    have hfail : Story p k q env (past ++ [.fault code error]) seen 0 0 (base ++ c.log)
        { c.h with error, stats := { c.h.stats with lastError := code } } :=
      { hpass with
        accepted := fun hq hok => absurd hok (horder hq)
        current := fun hq hok => absurd hok (horder hq)
        waiting := fun hq hok => absurd hok (horder hq)
        whole := fun hq hok => absurd hok (horder hq) }
    exact hfail.same
  | output bytes => exact hquiet nofun _ ⟨fun _ => ⟨rfl, rfl, rfl, rfl, rfl⟩, rfl, rfl, rfl⟩
  | beginHeaders id request => exact beginHeaders_story hs hlegal c hc
  | header id name value => exact (onHeader_story hs hi hlegal c hc).same
  | abandon id =>
    obtain ⟨rfl, rfl, -⟩ := hc
    exact (hs.abandon hlegal).same
  | frame f => exact (receivedFrame_story hs hi hlegal horder hroom c hc).same
  | data id bytes => exact (receivedData_story hs hlegal horder c hc).same
  | closed id error => exact (closedStream_story hs hlegal c hc).same
  | sentFrame type reason =>
    cases type with
    | goaway error last => exact hquiet nofun _ ⟨fun _ => ⟨rfl, rfl, rfl, rfl, rfl⟩, rfl, rfl, rfl⟩
    | _ => exact hquiet nofun _ (Quiet.refl _)
  | protocolError code => exact hquiet nofun _ ⟨fun _ => ⟨rfl, rfl, rfl, rfl, rfl⟩, rfl, rfl, rfl⟩
  | invalidFrame type code => exact hquiet nofun _ ⟨fun _ => ⟨rfl, rfl, rfl, rfl, rfl⟩, rfl, rfl, rfl⟩
  | read id capacity => exact (readResponse_story hs hi hlegal c hc).same
  | call call =>
    have hpass : Story p k q env (past ++ [.call call]) seen 0 0 log h := hs.pass nofun
    have hran := Call.ran (m := False) hs.distinct hv (fun hno => hno.elim) c hc.ran
    exact (hpass.effect hran.effect).same

end

/-- nghttp2 does this, and the callbacks only respond and resume. -/
def World.Orderly (w : World) (past : List Event) : Trace → Prop
  | [] => True
  | (e, o) :: rest => H2.Orderly w.h past e ∧ o.Modest ∧ (w.step e o).Orderly (past ++ [e]) rest

instance World.decidableOrderly : (w : World) → (past : List Event) → (t : Trace) →
    Decidable (w.Orderly past t)
  | _, _, [] => inferInstanceAs (Decidable True)
  | w, past, (e, o) :: rest =>
    have := decidableOrderly (w.step e o) (past ++ [e]) rest
    inferInstanceAs (Decidable (H2.Orderly w.h past e ∧ o.Modest ∧
      (w.step e o).Orderly (past ++ [e]) rest))

/-- Whenever an HTTP stream passes the admission count, fewer slots are held than the application has
asked for. -/
def World.Roomy (w : World) (log : List Note) : Trace → Prop
  | [] => True
  | (e, o) :: rest => (w.h.admits e = true → w.h.held log < w.h.appLimit) ∧
      (w.step e o).Roomy (log ++ (w.handle e o).log) rest

instance World.decidableRoomy : (w : World) → (log : List Note) → (t : Trace) →
    Decidable (w.Roomy log t)
  | _, _, [] => inferInstanceAs (Decidable True)
  | w, log, (e, o) :: rest =>
    have := decidableRoomy (w.step e o) (log ++ (w.handle e o).log) rest
    inferInstanceAs (Decidable ((w.h.admits e = true → w.h.held log < w.h.appLimit) ∧
      (w.step e o).Roomy (log ++ (w.handle e o).log) rest))

/-- The stream is in a slot at some point of the run. -/
def World.Occupied (w : World) (t : Trace) (id : Int) : Prop :=
  id ≠ 0 ∧ ∃ t', t' <+: t ∧ ∃ i, ((w.run t').h.streams i).id = id

section
variable {p q : Prop} {k : Nat} {past : List Event} {seen : Int → Prop} {log : List Note} {w : World}

theorem World.step_story {e : Event} {o : Oracle} (hi : Inv w.env w.h)
    (hs : Story p k q w.env past seen 0 0 log w.h) (hlegal : w.env.Legal e) (hv : Valid e o)
    (horder : q → H2.Orderly w.h past e ∧ o.Modest)
    (hroom : p → w.h.admits e = true → w.h.held log < w.h.appLimit) :
    Story p k q (w.step e o).env (past ++ [e]) (Seen seen (w.step e o).h) 0 0
      (log ++ (w.handle e o).log) (w.step e o).h := by
  have hallows : o.Allows q := fun reply hr call hcall =>
    ⟨hv.2 reply hr call hcall, fun hq => (horder hq).2 reply hr call hcall⟩
  have hstory := Event.story hs hi hlegal hv.1 (fun hq => (horder hq).1) hroom
    ⟨w.h, o, w.env.responses, []⟩ ⟨List.append_nil log, rfl, hallows⟩
  exact { hstory with }

theorem occupied_cons {e : Event} {o : Oracle} {rest : Trace} {id : Int} :
    w.Occupied ((e, o) :: rest) id ↔
      (id ≠ 0 ∧ ∃ i, (w.h.streams i).id = id) ∨ (w.step e o).Occupied rest id := by
  constructor
  · rintro ⟨h0, t', ht', i, hi⟩
    cases t' with
    | nil => exact .inl ⟨h0, i, hi⟩
    | cons y t' =>
      obtain ⟨rfl, htail⟩ := List.cons_prefix_cons.1 ht'
      exact .inr ⟨h0, t', htail, i, hi⟩
  · rintro (⟨h0, i, hi⟩ | ⟨h0, t', ht', i, hi⟩)
    · exact ⟨h0, [], List.nil_prefix, i, hi⟩
    · exact ⟨h0, (e, o) :: t', List.cons_prefix_cons.2 ⟨rfl, ht'⟩, i, hi⟩

theorem occupied_self {t : Trace} {id : Int} (h0 : id ≠ 0) (h : ∃ i, (w.h.streams i).id = id) :
    w.Occupied t id :=
  ⟨h0, [], List.nil_prefix, h⟩

/-- In every run slots and history agree at the end. -/
theorem World.run_story {t : Trace} (hi : Inv w.env w.h) (hs : Story p k q w.env past seen 0 0 log w.h)
    (hlegal : w.Legal t) (horder : q → w.Orderly past t) (hroom : p → w.Roomy log t) :
    Story p k q (w.run t).env (past ++ t.map Prod.fst) (fun id => seen id ∨ w.Occupied t id) 0 0
      (log ++ w.notes t) (w.run t).h := by
  induction t generalizing w past seen log with
  | nil =>
    have heq : (fun id => seen id ∨ w.Occupied [] id) = seen := by
      funext id
      refine propext ⟨?_, .inl⟩
      rintro (hid | ⟨h0, t', ht', i, rfl⟩)
      · exact hid
      · obtain rfl := List.prefix_nil.1 ht'
        exact hs.slot i h0
    rw [heq]
    simpa [World.notes, World.run] using hs
  | cons y rest ih =>
    obtain ⟨e, o⟩ := y
    obtain ⟨hlegal, hv, hrest⟩ := hlegal
    have hstep := World.step_story hi hs hlegal hv (fun hq => ⟨(horder hq).1, (horder hq).2.1⟩)
      fun hp => (hroom hp).1
    have hrun := ih (World.step_inv hi hlegal hv) hstep hrest (fun hq => (horder hq).2.2)
      fun hp => (hroom hp).2
    have heq : (fun id => seen id ∨ w.Occupied ((e, o) :: rest) id) = fun id =>
        Seen seen (w.step e o).h id ∨ (w.step e o).Occupied rest id := by
      funext id
      refine propext ⟨?_, ?_⟩
      · rw [occupied_cons]
        rintro (hid | ⟨h0, i, rfl⟩ | hid)
        · exact .inl (.inl hid)
        · exact .inl (.inl (hs.slot i h0))
        · exact .inr hid
      · rw [occupied_cons]
        rintro ((hid | ⟨h0, hid⟩) | hid)
        · exact .inl hid
        · exact .inr (.inr (occupied_self h0 hid))
        · exact .inr (.inr hid)
    rw [heq]
    simpa [World.notes, World.run] using hrun

/-- A session that `cf_h2_create` returns has no history. -/
theorem Story.create {apps limit : Nat} {h : Session} (hcreate : h2Create apps limit true = .ok h) :
    Story p apps q {} [] (fun _ => False) 0 0 [] h := by
  unfold h2Create at hcreate
  split at hcreate
  · cases hcreate
  obtain rfl : { appLimit := apps : Session } = h := by simpa using hcreate
  exact {
    distinct := fun _ _ hid => absurd rfl hid
    zero := List.not_mem_nil
    known := nofun
    slot := fun _ hid => absurd rfl hid
    told := nofun
    kept := nofun
    closed := fun _ hid => absurd rfl hid
    reset := nofun
    response := nofun
    fresh := fun _ hid => absurd rfl hid
    answered := nofun
    holds := nofun
    verdict := nofun
    once := List.nodup_nil
    early := nofun
    limit := rfl
    room := fun _ => by simp [Session.held, Table.tally]
    free := fun _ => History.Obeys.nil
    order := fun _ => History.Obeys.nil
    accepted := fun _ _ _ hid => absurd rfl hid
    current := fun _ _ _ hid => absurd rfl hid
    waiting := fun _ _ _ hid => absurd rfl hid
    whole := fun _ _ _ hid => absurd rfl hid
    started := fun _ _ => List.nil_prefix
    ended := nofun }

end

end EspCfTunnel.H2
