import EspCfTunnel.Lib.History
import EspCfTunnel.Task.Moves

/-!
# The output of a connection

esp-tls wants a write that could not be completed to be tried again with the same buffer before
anything else is done. The books of a connection say what `nghttp2_session_mem_send2` has produced
and what esp-tls has accepted, and which write waits; the output that is left to send makes up the
difference.
-/

namespace EspCfTunnel.Task

open EspCfTunnel StateLogic Lifecycle Config

/-! ## The books of a connection -/

/-- `ESP_TLS_ERR_SSL_WANT_READ` or `ESP_TLS_ERR_SSL_WANT_WRITE`. -/
def Write.waits : Write → Bool
  | .wantRead | .wantWrite => true
  | _ => false

/-- What is accepted of a chunk. -/
def Write.taken (bytes : Bytes) : Write → Bytes
  | .wrote n => bytes.take n
  | _ => []

/-- What has been produced and what has been accepted, oldest first; the last output; and the pointer
and the bytes of the write that waits. -/
structure Ledger where
  outputs : Bytes := []
  accepted : Bytes := []
  last : Bytes := []
  waiting : Option (Nat × Nat × Bytes) := none

def Ledger.note (g : Ledger) : Note → Ledger
  | .output bytes => { g with outputs := g.outputs ++ bytes, last := bytes }
  | .tlsRead => { g with waiting := none }
  | .tlsWrite serial offset bytes result =>
    { g with
      accepted := g.accepted ++ result.taken bytes
      waiting := if result.waits then some (serial, offset, bytes) else none }
  | _ => g

/-- The books of a history, newest first. -/
def ledger : List Note → Ledger
  | [] => {}
  | n :: history => (ledger history).note n

/-- The discipline: more output is asked for only when all of it has been accepted; while a write
waits, the next operation is the same write; and what is written is what comes next. -/
def Note.Disciplined (g : Ledger) : Note → Prop
  | .memSend | .output _ => g.outputs = g.accepted
  | .tlsRead => g.waiting = none
  | .tlsWrite serial offset bytes _ =>
    (∀ w, g.waiting = some w → w = (serial, offset, bytes)) ∧
      ∃ rest, g.outputs = g.accepted ++ rest ∧ bytes = rest.take chunkSize
  | _ => True

/-- The clock does not say 0 when a write begins to wait, and esp-tls accepts no more than it is
given. -/
def Note.timely : Note → Bool
  | .stalled now => now ≠ 0
  | .tlsWrite _ _ bytes (.wrote n) => n ≤ bytes.length
  | _ => true

/-! ## The invariant -/

/-- The books agree with what is left to send. -/
structure Sending (k : Core) (g : Ledger) : Prop where
  lossless : g.outputs = g.accepted ++ k.link.pending
  rest : k.link.pending = g.last.drop k.link.offset
  waits : ∀ w, g.waiting = some w →
    w = (k.link.serial, k.link.offset, k.link.pending.take chunkSize) ∧ k.link.pending ≠ [] ∧
      k.writeStalledMs ≠ 0

/-- In a history in which everything is timely, the books agree and the discipline is kept. -/
def Orderly (c : Ctx) : Prop :=
  (∀ n ∈ c.history, n.timely = true) → Sending c.t.core (ledger (sinceClose c.history)) ∧
    History.Lawful (fun before n => n.Disciplined (ledger (sinceClose before))) c.history

section
variable {c c' : Ctx} {k k' : Core} {g : Ledger}

theorem ledger_inner {notes history : List Note} (h : ∀ n ∈ notes, n.inner = true) :
    ledger (notes ++ history) = ledger history := by
  induction notes with
  | nil => rfl
  | cons n notes ih =>
    rw [List.cons_append, ledger, ih fun m hm => h m (List.mem_cons_of_mem _ hm)]
    have hn := h n List.mem_cons_self
    cases n <;> first | rfl | cases hn

theorem Note.disciplined_inner {n : Note} (h : n.inner = true) (g : Ledger) : n.Disciplined g := by
  cases n <;> trivial

/-- The books are about the output only. -/
theorem Sending.congr (h : Sending k g) (hoffset : k'.link.offset = k.link.offset)
    (hserial : k'.link.serial = k.link.serial) (hpending : k'.link.pending = k.link.pending)
    (hstalled : k'.writeStalledMs = k.writeStalledMs) : Sending k' g := by
  refine ⟨?_, ?_, ?_⟩
  · rw [hpending]
    exact h.lossless
  · rw [hpending, hoffset]
    exact h.rest
  · rw [hserial, hoffset, hpending, hstalled]
    exact h.waits

theorem Sending.output (h : Sending k g) (houtput : k'.output = k.output) : Sending k' g :=
  h.congr (congrArg (fun p => p.1.2.1) houtput) (congrArg (fun p => p.1.1) houtput)
    (congrArg (fun p => p.1.2.2) houtput) (congrArg (fun p => p.2.2) houtput)

/-- A move that leaves the output alone and makes no note of it. -/
theorem Orderly.inner (h : Orderly c) (notes : List Note) (houtput : c'.t.core.output = c.t.core.output)
    (hhistory : c'.history = notes ++ c.history) (hinner : ∀ n ∈ notes, n.inner = true) : Orderly c' := by
  intro htimely
  rw [hhistory] at htimely ⊢
  obtain ⟨hsending, hlawful⟩ := h fun n hn => htimely n (List.mem_append_right _ hn)
  refine ⟨?_, hlawful.append fun n hn _ => Note.disciplined_inner (hinner n hn) _⟩
  rw [sinceClose_append fun n hn => Note.inner_closes (hinner n hn), ledger_inner hinner]
  exact hsending.output houtput

/-- A move with one note, which says what becomes of the books. -/
theorem Orderly.note (h : Orderly c) {n : Note} (hhistory : c'.history = n :: c.history)
    (hcloses : n.closes = false)
    (hnote : n.timely = true → Sending c.t.core (ledger (sinceClose c.history)) →
      n.Disciplined (ledger (sinceClose c.history)) ∧
        Sending c'.t.core ((ledger (sinceClose c.history)).note n)) : Orderly c' := by
  intro htimely
  rw [hhistory] at htimely ⊢
  obtain ⟨hsending, hlawful⟩ := h fun m hm => htimely m (List.mem_cons_of_mem _ hm)
  obtain ⟨hdisciplined, hnew⟩ := hnote (htimely n List.mem_cons_self) hsending
  rw [sinceClose_cons hcloses]
  exact ⟨hnew, hdisciplined, hlawful⟩

theorem Sending.closed (l : Life) (stopping : Bool) : Sending (.closed l stopping) {} :=
  ⟨rfl, rfl, fun _ h => by cases h⟩

/-- A write may happen: it is the one that waits, if any does. -/
theorem Sending.write (h : Sending k g) (result : Write) : Note.Disciplined g
    (.tlsWrite k.link.serial k.link.offset (k.link.pending.take chunkSize) result) :=
  ⟨fun w hw => (h.waits w hw).1, _, h.lossless, rfl⟩

/-- All that has been produced has been accepted. -/
theorem Sending.complete (h : Sending k g) (hpending : k.link.pending = []) : g.outputs = g.accepted := by
  rw [h.lossless, hpending, List.append_nil]

/-- A write does not wait where there is nothing to send, nor where none has been noted. -/
theorem Sending.idle (h : Sending k g) (hstalled : k.writeStalledMs = 0) : g.waiting = none := by
  cases hw : g.waiting with
  | none => rfl
  | some w => exact absurd hstalled (h.waits w hw).2.2

/-- The output is replaced by a new one. -/
theorem Sending.produce (h : Sending k g) (hpending : k.link.pending = []) {bytes : Bytes}
    (hlink : k'.link = { k.link with serial := k.link.serial + 1, offset := 0, pending := bytes }) :
    Sending k' (g.note (.output bytes)) := by
  refine ⟨?_, ?_, fun w hw => absurd hpending (h.waits w hw).2.1⟩
  · rw [hlink]
    exact congrArg (· ++ bytes) (h.complete hpending)
  · rw [hlink]
    rfl

/-- A part of the output is accepted. -/
theorem Sending.accept (h : Sending k g) {n : Nat} (hn : n ≤ (k.link.pending.take chunkSize).length)
    (hlink : k'.link = { k.link with offset := k.link.offset + n, pending := k.link.pending.drop n }) :
    Sending k' (g.note (.tlsWrite k.link.serial k.link.offset (k.link.pending.take chunkSize)
      (.wrote n))) := by
  have htaken : (k.link.pending.take chunkSize).take n = k.link.pending.take n := by
    rw [List.length_take] at hn
    rw [List.take_take, min_eq_left (by omega)]
  refine ⟨?_, ?_, fun w hw => by cases hw⟩
  · change g.outputs = (g.accepted ++ (k.link.pending.take chunkSize).take n) ++ k'.link.pending
    rw [hlink, htaken, List.append_assoc, List.take_append_drop]
    exact h.lossless
  · change k'.link.pending = g.last.drop k'.link.offset
    rw [hlink]
    change k.link.pending.drop n = g.last.drop (k.link.offset + n)
    rw [h.rest, List.drop_drop]

/-- A write that is refused or fails. -/
theorem Sending.refuse (h : Sending k g) {result : Write}
    (htaken : result.taken (k.link.pending.take chunkSize) = []) (hlink : k'.link = k.link)
    (hwaits : result.waits = true → k.link.pending ≠ [] ∧ k'.writeStalledMs ≠ 0) :
    Sending k' (g.note (.tlsWrite k.link.serial k.link.offset (k.link.pending.take chunkSize)
      result)) := by
  refine ⟨?_, ?_, fun w hw => ?_⟩
  · change g.outputs = (g.accepted ++ result.taken (k.link.pending.take chunkSize)) ++ k'.link.pending
    rw [hlink, htaken, List.append_nil]
    exact h.lossless
  · rw [hlink]
    exact h.rest
  · change (if result.waits then _ else _) = some w at hw
    split at hw
    · next hres =>
      rw [hlink]
      exact ⟨(Option.some.inj hw).symm, hwaits hres⟩
    · cases hw

/-- Every move keeps the discipline. -/
theorem Move.orderly (hmove : Move c c') (h : Orderly c) : Orderly c' := by
  cases hmove with
  | drift hd =>
    obtain ⟨l, hcore, -⟩ := hd.core
    obtain ⟨notes, hhistory, hplain⟩ := hd.history
    refine h.inner notes ?_ hhistory fun n hn => Note.inner_of_plain (hplain n hn)
    rw [hcore]
    rfl
  | call _ hcall =>
    obtain ⟨notes, hhistory, hinner⟩ := hcall.history
    exact h.inner notes hcall.output hhistory hinner
  | returned hcore hhistory =>
    refine h.note hhistory rfl fun _ hs => ⟨trivial, hs.output ?_⟩
    rw [hcore]
  | unregister _ _ hk hcore hhistory =>
    refine h.inner _ ?_ hhistory (appendNotes_inner _ _)
    rw [hcore, Core.append_output, hk]
    rfl
  | stop hcore hhistory =>
    refine h.inner [] ?_ hhistory (by simp)
    rw [hcore]
    rfl
  | @apply parse update applied ps fault rc t before _ _ _ _ _ _ hcore _ _ hhistory =>
    -- The reply is noted last; the two notes before it are plain.
    obtain ⟨notes, hnotes⟩ : ∃ notes : List Note, notes = [.lifecycle .applyConfig rc,
      .configApply (cString c.t.hostname) c.t.service applied.result] := ⟨_, rfl⟩
    have hmid : Orderly { c with history := notes ++ c.history } :=
      h.inner notes rfl rfl (by simp [hnotes, Note.inner, Note.plain])
    rw [hnotes] at hmid
    refine hmid.note hhistory rfl fun _ hs => ⟨trivial, hs.output ?_⟩
    rw [hcore]
    rfl
  | tlsRead hstalled hcore hhistory =>
    refine h.note hhistory rfl fun _ hs => ⟨hs.idle hstalled, ?_⟩
    rw [hcore]
    exact ⟨hs.lossless, hs.rest, fun w hw => by cases hw⟩
  | memSend hpending hcore hhistory =>
    refine h.note hhistory rfl fun _ hs => ⟨hs.complete hpending, ?_⟩
    rw [hcore]
    exact hs
  | output hh2 hpending hcore hhistory =>
    refine h.note hhistory rfl fun _ hs => ⟨hs.complete hpending, hs.produce hpending ?_⟩
    rw [hcore]
    exact Core.link_map hh2 _
  | wrote hh2 _ _ hcore hhistory =>
    refine h.note hhistory rfl fun ht hs => ⟨hs.write _, hs.accept (of_decide_eq_true ht) ?_⟩
    rw [hcore]
    exact Core.link_map hh2 _
  | @failed result hread hwrite hwrote hcore hhistory =>
    refine h.note hhistory rfl fun ht hs => ⟨hs.write _, ?_⟩
    rw [hcore]
    cases result with
    | wantRead => exact absurd rfl hread
    | wantWrite => exact absurd rfl hwrite
    | failed n => exact hs.refuse rfl rfl (fun h => by cases h)
    | wrote n =>
      refine hs.refuse ?_ rfl (fun h => by cases h)
      have hn : n ≤ (c.t.link.pending.take chunkSize).length := by simpa [Note.timely] using ht
      rw [List.length_take] at hn
      obtain rfl : n = 0 := by
        have := hwrote n rfl
        omega
      rfl
  | @wait result hwait hpending hstalled hcore hhistory =>
    refine h.note hhistory rfl fun _ hs => ⟨hs.write _, ?_⟩
    rw [hcore]
    exact hs.refuse (by rcases hwait with rfl | rfl <;> rfl) rfl fun _ => ⟨hpending, hstalled⟩
  | @stall result now hwait hpending hcore hhistory =>
    intro htimely
    rw [hhistory] at htimely ⊢
    obtain ⟨hsending, hlawful⟩ := h fun n hn => htimely n (List.mem_cons_of_mem _ (List.mem_cons_of_mem _ hn))
    have hnow : now ≠ 0 := by simpa [Note.timely] using htimely _ List.mem_cons_self
    refine ⟨?_, trivial, hsending.write result, hlawful⟩
    rw [sinceClose_cons rfl, sinceClose_cons rfl, hcore]
    exact hsending.refuse (by rcases hwait with rfl | rfl <;> rfl) rfl fun _ => ⟨hpending, hnow⟩
  | link hnone hcore hhistory =>
    intro htimely
    rw [hhistory] at htimely ⊢
    obtain ⟨hsending, hlawful⟩ := h htimely
    refine ⟨?_, hlawful⟩
    have hlink : c'.t.core.link = c.t.core.link := by
      rw [hcore, show c.t.core.link = {} from congrArg (·.getD {}) hnone]
      rfl
    exact hsending.congr (by rw [hlink]) (by rw [hlink]) (by rw [hlink]) (by rw [hcore])
  | @close l notes hplain hcore hhistory =>
    intro htimely
    rw [hhistory] at htimely ⊢
    obtain ⟨-, hlawful⟩ := h fun n hn => htimely n (List.mem_cons_of_mem _ (List.mem_append_right _ hn))
    refine ⟨?_, trivial, hlawful.append fun n hn _ =>
      Note.disciplined_inner (Note.inner_of_plain (hplain n hn)) _⟩
    rw [hcore]
    exact .closed l _
  | restart hsince _ hcore hhistory =>
    intro htimely
    rw [hhistory] at htimely ⊢
    obtain ⟨-, hlawful⟩ := h htimely
    refine ⟨?_, hlawful⟩
    rw [hsince, hcore]
    exact .closed _ _

end

/-- Write-retry discipline and lossless output: in every run with a clock that is never 0, what esp-tls
has accepted on a connection and the output that is left to send make up all that
`nghttp2_session_mem_send2` has produced, the rest being the end of the last output; and every
operation keeps the discipline. -/
theorem tls_write_discipline {s : Setup} {w : World} (h : Reach s w)
    (htimely : ∀ n ∈ w.history, n.timely = true) :
    (ledger (sinceClose w.history)).outputs =
        (ledger (sinceClose w.history)).accepted ++ w.t.link.pending ∧
      w.t.link.pending = (ledger (sinceClose w.history)).last.drop w.t.link.offset ∧
      ∀ later n before, w.history = later ++ n :: before →
        n.Disciplined (ledger (sinceClose before)) := by
  have horderly : Orderly w.ctx := by
    refine h.keeps (fun t l stopping hcore _ => ⟨?_, trivial⟩) fun c c' hmove => hmove.orderly
    rw [hcore]
    exact .closed l stopping
  obtain ⟨hsending, hlawful⟩ := horderly htimely
  refine ⟨hsending.lossless, hsending.rest, fun later n before heq => ?_⟩
  rw [show w.ctx.history = later ++ n :: before from heq] at hlawful
  exact hlawful.split

/-- A run in which a write of three bytes is accepted in part, has to wait, and is tried again. -/
theorem tls_write_discipline_retried :
    let w := sampleWorld (sampleConnect ++
      [{ sampleReady with
          clock := List.replicate 8 5, outputs := [([], [1, 2, 3])], writes := [.wrote 1, .wantWrite] },
        { sampleReady with clock := List.replicate 8 5, writes := [.wrote 1, .wantRead] }])
    (ledger (sinceClose w.history)).waiting = some (1, 2, [3]) ∧
      (ledger (sinceClose w.history)).outputs =
        (ledger (sinceClose w.history)).accepted ++ w.t.link.pending := by
  intro w
  refine ⟨by decide +kernel, (tls_write_discipline (sampleWorld_reach _) ?_).1⟩
  have htimely : w.history.all Note.timely = true := by decide +kernel
  exact List.all_eq_true.1 htimely

end EspCfTunnel.Task
