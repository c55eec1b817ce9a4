import EspCfTunnel.Lib.History
import EspCfTunnel.Task.Moves

/-!
# The queue of the control stream

What the registration client says waits in `rpc_queue` until nghttp2 asks for it. The account of a
connection says what has been put in and what has been handed out. The queue never overflows, because
the client says little in each of its states; and a stream that waits is woken by the next message.
-/

namespace EspCfTunnel.Task

open EspCfTunnel StateLogic Lifecycle Config

/-! ## The account of a connection -/

/-- What the client has said and what has been handed out, oldest first. -/
structure Account where
  produced : Bytes := []
  handed : Bytes := []

def Account.note (g : Account) : Note → Account
  | .append _ bytes _ => { g with produced := g.produced ++ bytes }
  | .handed _ bytes _ => { g with handed := g.handed ++ bytes }
  | _ => g

/-- The account of a history, newest first. -/
def account : List Note → Account
  | [] => {}
  | n :: history => (account history).note n

/-- The queue holds exactly what has not been handed out, its other bytes are zero, and nothing waits
while the control stream waits for more and can be woken. -/
structure QueueExact (t : Tunnel) (g : Account) : Prop where
  content : g.produced = g.handed ++ t.rpcQueue.read 0 t.rpcQueued
  wiped : ∀ i, t.rpcQueued ≤ i → t.rpcQueue i = 0
  woken : t.link.deferred = true → t.link.reset = false → t.rpcQueued = 0 ∧ t.rpc.state ≠ .closed

/-- What holds of a note until a fault is set: the queue has room for every message, the end is
signalled exactly when the client has closed and everything is handed out, and the queue is exact
after every callback. -/
def Note.Queued (before : List Note) : Note → Prop
  | .append fault _ rc => fault = false → rc = .ok
  | .handed t bytes eof => t.fault = false → (eof = true ↔ t.rpc.state = .closed ∧
      (account (sinceClose before)).produced = (account (sinceClose before)).handed ++ bytes)
  | .returned t => t.fault = false → QueueExact t (account (sinceClose before))
  | _ => True

/-- nghttp2 makes callbacks for streams, and asks for some bytes of a response that has been
submitted. -/
def Note.proper : Note → Bool
  | .callback (.read id capacity) => id ≠ 0 ∧ 0 < capacity
  | .callback call => call.stream ≠ 0
  | .handed t _ _ => t.link.response
  | _ => true

/-! ## What a client says at most -/

/-- A bound on what the client has said when it is in a state. -/
def spoken : Rpc.State → Nat
  | .idle => 0
  | .bootstrapping => 1024
  | .ready => 1112
  | .registering => 2136
  | .registered | .rejected => 2224
  | .unregistering => 3248
  | .closed => 3336
  | .failed => 3424

theorem spoken_le (s : Rpc.State) : spoken s ≤ queueSize := by
  cases s <;> decide

theorem length_bytes (o : Rpc.Outcome) : (Rpc.Outcome.bytes o).length = o.n := Mem.length_read _ _ _

/-- A message is answered within the bound. -/
theorem spoken_receive {r : Rpc.Client} (hcap : r.state ≠ .failed → r.capability < 2 ^ 32)
    (frame : Bytes) : spoken r.state + (Rpc.rpcReceive r frame zeros Rpc.txMax).n ≤
      spoken (Rpc.rpcReceive r frame zeros Rpc.txMax).rpc.state := by
  by_cases hdeaf : r.state.deaf = true
  · have hnone : (Rpc.rpcReceive r frame zeros Rpc.txMax).n = 0 ∧
        (Rpc.rpcReceive r frame zeros Rpc.txMax).rpc = r := Rpc.rpcReceive_deaf zeros frame hdeaf
    rw [hnone.1, hnone.2]
    rfl
  have hn : (Rpc.rpcReceive r frame zeros Rpc.txMax).n ≤ 88 := Rpc.rpcReceive_length zeros frame
  have ha := Rpc.rpcReceive_acts (r := r) zeros le_rfl hcap frame
  generalize (Rpc.rpcReceive r frame zeros Rpc.txMax) = o at hn ha
  have hopen : spoken r.state ≤ 3248 := by
    revert hdeaf
    cases r.state <;> decide
  generalize he : (⟨.receive frame, o.sent, o.result⟩ : Rpc.Entry) = e at ha
  have hop : e.op = .receive frame := by rw [← he]
  generalize o.rpc = r' at ha ⊢
  cases ha with
  | quiet hquiet => exact absurd (hquiet frame hop) hdeaf
  | bootstrap | register | unregister => cases hop
  | fail _ hs _ | exception _ _ hs _ =>
    rw [hs]
    change _ ≤ 3424
    omega
  | bootstrapped hs _ _ hs' | closed hs _ _ hs' =>
    rw [hs, hs']
    simp only [spoken]
    omega
  | registered hs _ _ hs' =>
    rw [hs]
    simp at hs'
    rcases hs' with hs' | hs' <;> rw [hs'] <;> simp only [spoken] <;> omega

/-! ## The invariant -/

/-- What holds of the queue and the slot of the control stream at any time. -/
structure Held (k : Core) : Prop where
  closing : k.closing = false
  capability : k.rpc.state ≠ .failed → k.rpc.capability < 2 ^ 32
  room : k.rpcQueued ≤ queueSize
  wiped : ∀ i, k.rpcQueued ≤ i → k.rpcQueue i = 0
  vacant : k.controlStream = 0 →
    k.link.response = false ∧ k.link.deferred = false ∧ k.link.reset = false
  asked : k.link.deferred = true → k.link.response = true

/-- What holds until a fault is set. -/
structure Flowing (k : Core) (g : Account) : Prop where
  content : g.produced = g.handed ++ k.rpcQueue.read 0 k.rpcQueued
  spoken : g.produced.length ≤ spoken k.rpc.state
  fresh : k.controlStream = 0 → k.stopping = false → g.produced = [] ∧ k.rpc.state = .idle
  woken : k.link.deferred = true → k.link.reset = false → k.rpcQueued = 0 ∧ k.rpc.state ≠ .closed

/-- In a history in which every callback is proper, the queue is exact. -/
def Queueing (c : Ctx) : Prop :=
  (∀ n ∈ c.history, n.proper = true) → Held c.t.core ∧
    (c.t.fault = false → Flowing c.t.core (account (sinceClose c.history))) ∧
    History.Lawful (fun before n => n.Queued before) c.history

section
variable {c c' : Ctx} {k k' : Core} {g : Account}

theorem Flowing.exact {t : Tunnel} (hheld : Held t.core) (h : Flowing t.core g) : QueueExact t g :=
  ⟨h.content, hheld.wiped, h.woken⟩

/-- The notes that the account and the rules are not about. -/
def Note.idle : Note → Bool
  | .append _ _ _ | .handed _ _ _ | .returned _ | .closeConnection => false
  | _ => true

theorem Note.idle_of_plain {n : Note} (h : n.plain = true) : n.idle = true := by
  cases n <;> first | rfl | cases h

theorem Note.idle_closes {n : Note} (h : n.idle = true) : n.closes = false := by
  cases n <;> first | rfl | cases h

theorem account_idle {notes history : List Note} (h : ∀ n ∈ notes, n.idle = true) :
    account (notes ++ history) = account history := by
  induction notes with
  | nil => rfl
  | cons n notes ih =>
    rw [List.cons_append, account, ih fun m hm => h m (List.mem_cons_of_mem _ hm)]
    have hn := h n List.mem_cons_self
    cases n <;> first | rfl | cases hn

theorem Note.queued_idle {n : Note} (h : n.idle = true) (before : List Note) : n.Queued before := by
  cases n <;> trivial

theorem Held.closed (l : Life) (stopping : Bool) : Held (.closed l stopping) :=
  ⟨rfl, fun _ => (by decide : Rpc.rpcInit.capability < 2 ^ 32), Nat.zero_le _, fun _ _ => rfl, fun _ => ⟨rfl, rfl, rfl⟩, fun h => by cases h⟩

theorem Flowing.closed (l : Life) (stopping : Bool) : Flowing (.closed l stopping) {} :=
  ⟨rfl, Nat.zero_le _, fun _ _ => ⟨rfl, rfl⟩, fun h => by cases h⟩

/-- A message of the client has room in the queue. -/
theorem Flowing.fits (h : Flowing k g) {bytes : Bytes}
    (hroom : g.produced.length + bytes.length ≤ queueSize) : k.fits bytes := by
  have hlength := congrArg List.length h.content
  rw [List.length_append, Mem.length_read] at hlength
  unfold Core.fits
  omega

theorem Link.resume_flags (l : Link) : l.resume.response = l.response ∧ l.resume.reset = l.reset ∧
    (l.resume.deferred = true → l.deferred = true ∧ ¬ (l.response = true ∧ l.reset = false)) := by
  unfold Link.resume
  split
  · exact ⟨rfl, rfl, fun h => by cases h⟩
  · next h =>
    refine ⟨rfl, rfl, fun hd => ⟨hd, fun hr => h ⟨hr.1, ?_⟩⟩⟩
    rw [hr.2]
    rfl

/-- The slot after `append_rpc`: it waits only if it cannot be woken. -/
theorem Held.append_link (h : Held k) {bytes : Bytes} (hfits : k.fits bytes) :
    (k.append bytes).link.response = k.link.response ∧
      (k.append bytes).link.reset = k.link.reset ∧
      ((k.append bytes).link.deferred = true → k.link.deferred = true ∧ k.link.reset = true) := by
  have hlink : (k.append bytes).link = if k.controlStream ≠ 0 then
      (k.h2.map Link.resume).getD {} else k.link := by
    unfold Core.append
    rw [if_pos hfits]
    dsimp only [Core.link]
    split <;> rfl
  rw [hlink]
  split
  · cases hh2 : k.h2 with
    | none => simp [Core.link, hh2]
    | some l =>
      have hl : k.link = l := by
        rw [Core.link, hh2]
        rfl
      obtain ⟨hresponse, hreset, hdeferred⟩ := l.resume_flags
      have hasked := h.asked
      rw [hl] at hasked ⊢
      refine ⟨hresponse, hreset, fun hd => ⟨(hdeferred hd).1, ?_⟩⟩
      by_contra hno
      exact (hdeferred hd).2 ⟨hasked (hdeferred hd).1, by simpa using hno⟩
  · next hcontrol =>
    refine ⟨rfl, rfl, fun hd => ?_⟩
    rw [(h.vacant (not_not.1 hcontrol)).2.1] at hd
    cases hd

theorem Held.append (h : Held k) (bytes : Bytes) : Held (k.append bytes) := by
  by_cases hfits : k.fits bytes
  · obtain ⟨hresponse, hreset, hdeferred⟩ := h.append_link hfits
    have heq : (k.append bytes).closing = k.closing ∧ (k.append bytes).rpc = k.rpc ∧
        (k.append bytes).rpcQueue = k.rpcQueue.write k.rpcQueued bytes ∧
        (k.append bytes).rpcQueued = k.rpcQueued + bytes.length := by
      unfold Core.append
      rw [if_pos hfits]
      exact ⟨rfl, rfl, rfl, rfl⟩
    obtain ⟨hclosing, hrpc, hqueue, hqueued⟩ := heq
    refine ⟨hclosing.trans h.closing, ?_, ?_, fun i hi => ?_, fun hc => ?_, fun hd => ?_⟩
    · rw [hrpc]
      exact h.capability
    · have := h.room
      unfold Core.fits at hfits
      omega
    · rw [hqueued] at hi
      rw [hqueue, Mem.write_of_ge _ _ hi]
      exact h.wiped i (by omega)
    · rw [Core.append_controlStream] at hc
      obtain ⟨hr, hd, hs⟩ := h.vacant hc
      refine ⟨hresponse.trans hr, ?_, hreset.trans hs⟩
      by_contra hd'
      rw [(hdeferred (by simpa using hd')).1] at hd
      cases hd
    · rw [hresponse]
      exact h.asked (hdeferred hd).1
  · rw [Core.append, if_neg hfits]
    exact h

/-- What `append_rpc` puts in the queue follows what is there. -/
theorem Flowing.append (hheld : Held k) (hcontent : g.produced = g.handed ++ k.rpcQueue.read 0 k.rpcQueued)
    {bytes : Bytes} (hfits : k.fits bytes)
    (hspoken : g.produced.length + bytes.length ≤ Task.spoken k.rpc.state)
    (hfresh : k.controlStream = 0 → k.stopping = false → g.produced ++ bytes = [] ∧ k.rpc.state = .idle) :
    Flowing (k.append bytes) { g with produced := g.produced ++ bytes } := by
  obtain ⟨hresponse, hreset, hdeferred⟩ := hheld.append_link hfits
  have heq : (k.append bytes).rpc = k.rpc ∧ (k.append bytes).stopping = k.stopping ∧
      (k.append bytes).rpcQueue = k.rpcQueue.write k.rpcQueued bytes ∧
      (k.append bytes).rpcQueued = k.rpcQueued + bytes.length := by
    unfold Core.append
    rw [if_pos hfits]
    exact ⟨rfl, rfl, rfl, rfl⟩
  obtain ⟨hrpc, hstopping, hqueue, hqueued⟩ := heq
  refine ⟨?_, ?_, fun hc hs => ?_, fun hd hr => ?_⟩
  · change g.produced ++ bytes = g.handed ++ _
    have hread := Mem.read_write_end k.rpcQueue 0 k.rpcQueued bytes
    rw [Nat.zero_add] at hread
    rw [hqueue, hqueued, hread, ← List.append_assoc, ← hcontent]
  · rw [hrpc]
    change (g.produced ++ bytes).length ≤ _
    rw [List.length_append]
    exact hspoken
  · rw [Core.append_controlStream] at hc
    rw [hrpc]
    exact hfresh hc (hstopping.symm.trans hs)
  · have := (hdeferred hd).2
    rw [← hreset, hr] at this
    cases this

/-- What the queue and the slot of the control stream depend on. -/
def Core.queue (k : Core) : (Rpc.Client × Mem × Nat) × (Bool × Bool × Int) × Bool × Bool × Bool :=
  ((k.rpc, k.rpcQueue, k.rpcQueued), (k.closing, k.stopping, k.controlStream), k.link.response,
    k.link.deferred, k.link.reset)

theorem Held.congr (h : Held k) (heq : k'.queue = k.queue) : Held k' := by
  unfold Core.queue at heq
  simp only [Prod.mk.injEq] at heq
  obtain ⟨⟨hrpc, hqueue, hqueued⟩, ⟨hclosing, -, hcontrol⟩, hresponse, hdeferred, hreset⟩ := heq
  constructor
  · rw [hclosing]
    exact h.closing
  · rw [hrpc]
    exact h.capability
  · rw [hqueued]
    exact h.room
  · rw [hqueued, hqueue]
    exact h.wiped
  · rw [hcontrol, hresponse, hdeferred, hreset]
    exact h.vacant
  · rw [hdeferred, hresponse]
    exact h.asked

theorem Flowing.congr (h : Flowing k g) (heq : k'.queue = k.queue) : Flowing k' g := by
  unfold Core.queue at heq
  simp only [Prod.mk.injEq] at heq
  obtain ⟨⟨hrpc, hqueue, hqueued⟩, ⟨-, hstopping, hcontrol⟩, -, hdeferred, hreset⟩ := heq
  constructor
  · rw [hqueue, hqueued]
    exact h.content
  · rw [hrpc]
    exact h.spoken
  · rw [hcontrol, hstopping, hrpc]
    exact h.fresh
  · rw [hdeferred, hreset, hqueued, hrpc]
    exact h.woken

/-! ## Reading -/

/-- The slot after `read_response`. -/
theorem Core.read_link (hresponse : k.link.response = true) (capacity : Nat) :
    (k.read capacity).link = { k.link with
      deferred := k.handedOut capacity = 0 ∧ k.ends capacity = false } := by
  refine Core.link_map ?_ _
  cases hh2 : k.h2 with
  | none =>
    rw [Core.link, hh2] at hresponse
    cases hresponse
  | some l => rfl

/-- What is left moves to the front, and its old place is wiped. -/
theorem Mem.shift_out (m : Mem) (n left : Nat) :
    ((m.write 0 (m.read n left)).write left (List.replicate n 0)).read 0 left = m.read n left ∧
      ∀ i, left ≤ i → (n + left ≤ i → m i = 0) →
        (m.write 0 (m.read n left)).write left (List.replicate n 0) i = 0 := by
  constructor
  · rw [Mem.read_write_disjoint _ _ (by omega)]
    have hsame := Mem.read_write_same m 0 (m.read n left)
    rwa [Mem.length_read] at hsame
  · intro i hi hwiped
    obtain ⟨j, rfl⟩ := Nat.exists_eq_add_of_le hi
    by_cases hj : j < n
    · rw [Mem.write_inside _ _ (by simpa using hj)]
      simp
    · rw [Mem.write_of_ge _ _ (by simp; omega), Mem.write_of_ge _ _ (by simp)]
      exact hwiped (by omega)

theorem Held.read (h : Held k) (hresponse : k.link.response = true) (hcontrol : k.controlStream ≠ 0)
    (capacity : Nat) : Held (k.read capacity) := by
  obtain ⟨-, hwiped⟩ := Mem.shift_out k.rpcQueue (k.handedOut capacity) (k.left capacity)
  have hsplit : k.handedOut capacity + k.left capacity = k.rpcQueued := by
    unfold Core.left Core.handedOut
    omega
  refine ⟨h.closing, h.capability, ?_, fun i hi => hwiped i hi fun hi => h.wiped i (by omega), ?_, ?_⟩
  · have := h.room
    change k.left capacity ≤ queueSize
    omega
  · exact fun hc => absurd hc hcontrol
  · rw [Core.read_link hresponse]
    exact fun _ => hresponse

/-- `h2_read` hands out the front of the queue, and the stream waits only for an empty one. -/
theorem Flowing.read (h : Flowing k g) (hresponse : k.link.response = true)
    (hcontrol : k.controlStream ≠ 0) {capacity : Nat} (hcapacity : 0 < capacity) :
    Flowing (k.read capacity)
      { g with handed := g.handed ++ k.rpcQueue.read 0 (k.handedOut capacity) } := by
  obtain ⟨hread, -⟩ := Mem.shift_out k.rpcQueue (k.handedOut capacity) (k.left capacity)
  have hsplit : k.handedOut capacity + k.left capacity = k.rpcQueued := by
    unfold Core.left Core.handedOut
    omega
  refine ⟨?_, h.spoken, fun hc => absurd hc hcontrol, ?_⟩
  · change g.produced = (g.handed ++ k.rpcQueue.read 0 (k.handedOut capacity)) ++ Mem.read _ 0 (k.left capacity)
    have hparts := Mem.read_add k.rpcQueue 0 (k.handedOut capacity) (k.left capacity)
    rw [hsplit, Nat.zero_add] at hparts
    rw [show (k.read capacity).rpcQueue.read 0 (k.left capacity) = _ from hread, List.append_assoc,
      ← hparts]
    exact h.content
  · rw [Core.read_link hresponse]
    intro hdeferred _
    have hdeferred : k.handedOut capacity = 0 ∧ k.ends capacity = false := of_decide_eq_true hdeferred
    have hempty : k.left capacity = 0 := by
      have := hdeferred.1
      unfold Core.left
      unfold Core.handedOut at this ⊢
      omega
    refine ⟨hempty, fun hclosed => ?_⟩
    have hends := hdeferred.2
    rw [Core.ends, decide_eq_false_iff_not] at hends
    exact hends ⟨hclosed, hempty⟩

/-- The end is signalled exactly when the client has closed and everything has been handed out. -/
theorem Flowing.ends_iff (h : Flowing k g) (capacity : Nat) :
    k.ends capacity = true ↔ k.rpc.state = .closed ∧
      g.produced = g.handed ++ k.rpcQueue.read 0 (k.handedOut capacity) := by
  have hsplit : k.handedOut capacity + k.left capacity = k.rpcQueued := by
    unfold Core.left Core.handedOut
    omega
  have hparts := Mem.read_add k.rpcQueue 0 (k.handedOut capacity) (k.left capacity)
  have hcontent := h.content
  rw [hsplit] at hparts
  rw [hparts, ← List.append_assoc] at hcontent
  rw [Core.ends, decide_eq_true_iff, hcontent, List.append_right_eq_self]
  refine and_congr_right fun _ => ⟨fun hleft => ?_, fun hnil => ?_⟩
  · rw [hleft, Mem.read_zero]
  · have := congrArg List.length hnil
    rwa [Mem.length_read] at this

/-- A flag is set in the slot of the control stream. -/
theorem Core.link_mark (k : Core) (f : Link → Link) :
    { k with h2 := k.h2.map f }.link = f k.link ∨ { k with h2 := k.h2.map f }.link = k.link := by
  cases hh2 : k.h2 with
  | none =>
    right
    rw [Core.link, Core.link, hh2]
    rfl
  | some l =>
    left
    rw [Core.link, Core.link, hh2]
    rfl

theorem Held.mark (h : Held k) (hcontrol : k.controlStream ≠ 0) {f : Link → Link}
    (hdeferred : ∀ l, (f l).deferred = l.deferred) (hresponse : ∀ l, l.response = true → (f l).response = true) :
    Held { k with h2 := k.h2.map f } := by
  refine ⟨h.closing, h.capability, h.room, h.wiped, fun hc => absurd hc hcontrol, ?_⟩
  rcases k.link_mark f with hlink | hlink <;> rw [hlink]
  · rw [hdeferred]
    exact fun hd => hresponse _ (h.asked hd)
  · exact h.asked

theorem Flowing.mark (h : Flowing k g) {f : Link → Link} (hdeferred : ∀ l, (f l).deferred = l.deferred)
    (hreset : ∀ l, (f l).reset = false → l.reset = false) : Flowing { k with h2 := k.h2.map f } g := by
  refine ⟨h.content, h.spoken, h.fresh, ?_⟩
  rcases k.link_mark f with hlink | hlink <;> rw [hlink]
  · rw [hdeferred]
    exact fun hd hr => h.woken hd (hreset _ hr)
  · exact h.woken

/-- The slot after `closed_stream`. -/
theorem Core.closeControl_link (k : Core) : k.closeControl.link.response = false ∧
    k.closeControl.link.deferred = false ∧ k.closeControl.link.reset = false := by
  unfold Core.closeControl Core.link
  cases k.h2 with
  | none => exact ⟨rfl, rfl, rfl⟩
  | some l => exact ⟨rfl, rfl, rfl⟩

theorem Held.closeControl (h : Held k) : Held k.closeControl := by
  obtain ⟨hresponse, hdeferred, hreset⟩ := k.closeControl_link
  refine ⟨h.closing, h.capability, h.room, h.wiped, fun _ => ⟨hresponse, hdeferred, hreset⟩, fun hd => ?_⟩
  rw [hdeferred] at hd
  cases hd

/-- The control stream ends without a fault only for a task that is stopping. -/
theorem Flowing.closeControl (h : Flowing k g) (hheld : Held k) (hfault : k.closeControl.fault = false) :
    Flowing k.closeControl g := by
  have hstopping : k.stopping = true := by
    simp [Core.closeControl, hheld.closing] at hfault
    exact hfault.2.1
  refine ⟨h.content, h.spoken, fun _ hs => ?_, fun hd => ?_⟩
  · cases hstopping.symm.trans hs
  · rw [k.closeControl_link.2.1] at hd
    cases hd

/-! ## Every move keeps it -/

/-- A move without notes of the queue. -/
theorem Queueing.idle (h : Queueing c) (notes : List Note) (hhistory : c'.history = notes ++ c.history)
    (hidle : ∀ n ∈ notes, n.idle = true)
    (hstep : (∀ n ∈ c.history, n.proper = true) → Held c.t.core → Held c'.t.core ∧
      (c'.t.fault = false → c.t.fault = false ∧ ∀ g, Flowing c.t.core g → Flowing c'.t.core g)) :
    Queueing c' := by
  intro hproper
  rw [hhistory] at hproper ⊢
  have hpast : ∀ n ∈ c.history, n.proper = true := fun n hn => hproper n (List.mem_append_right _ hn)
  obtain ⟨hheld, hflowing, hlawful⟩ := h hpast
  obtain ⟨hheld', hflow⟩ := hstep hpast hheld
  refine ⟨hheld', fun hfault => ?_, hlawful.append fun n hn _ => Note.queued_idle (hidle n hn) _⟩
  rw [sinceClose_append fun n hn => Note.idle_closes (hidle n hn), account_idle hidle]
  obtain ⟨hfault', hflow⟩ := hflow hfault
  exact hflow _ (hflowing hfault')

/-- A move that leaves the queue alone. -/
theorem Queueing.same (h : Queueing c) (notes : List Note) (hhistory : c'.history = notes ++ c.history)
    (hidle : ∀ n ∈ notes, n.idle = true) (hqueue : c'.t.core.queue = c.t.core.queue)
    (hfault : c'.t.fault = false → c.t.fault = false) : Queueing c' :=
  h.idle notes hhistory hidle fun _ hheld =>
    ⟨hheld.congr hqueue, fun hf => ⟨hfault hf, fun _ hflowing => hflowing.congr hqueue⟩⟩

/-- A move with one note. -/
theorem Queueing.note (h : Queueing c) {n : Note} (hhistory : c'.history = n :: c.history)
    (hcloses : n.closes = false)
    (hstep : n.proper = true → (∀ m ∈ c.history, m.proper = true) → Held c.t.core →
      Held c'.t.core ∧ ((c.t.fault = false → Flowing c.t.core (account (sinceClose c.history))) →
        n.Queued c.history ∧
          (c'.t.fault = false → Flowing c'.t.core ((account (sinceClose c.history)).note n)))) :
    Queueing c' := by
  intro hproper
  rw [hhistory] at hproper ⊢
  have hpast : ∀ m ∈ c.history, m.proper = true := fun m hm => hproper m (List.mem_cons_of_mem _ hm)
  obtain ⟨hheld, hflowing, hlawful⟩ := h hpast
  obtain ⟨hheld', hflow⟩ := hstep (hproper n List.mem_cons_self) hpast hheld
  obtain ⟨hqueued, hflow⟩ := hflow hflowing
  refine ⟨hheld', fun hfault => ?_, hqueued, hlawful⟩
  rw [sinceClose_cons hcloses]
  exact hflow hfault

theorem Core.append_fault (k : Core) (bytes : Bytes) : (k.append bytes).fault = k.fault := by
  unfold Core.append
  split <;> rfl

/-- A move in which the client says something, in the state it has then. -/
theorem Queueing.append (h : Queueing c) {k : Core} {bytes : Bytes} (notes : List Note)
    (hcore : c'.t.core = k.append bytes)
    (hhistory : c'.history = k.appendNotes bytes ++ (notes ++ c.history))
    (hidle : ∀ n ∈ notes, n.idle = true) (hfault : k.fault = c.t.fault)
    (hqueue : k.rpcQueue = c.t.rpcQueue) (hqueued : k.rpcQueued = c.t.rpcQueued)
    (hstep : (∀ n ∈ c.history, n.proper = true) → Held c.t.core → Held k ∧
      ∀ g, Flowing c.t.core g → g.produced.length + bytes.length ≤ spoken k.rpc.state ∧
        (k.controlStream = 0 → k.stopping = false → g.produced ++ bytes = [] ∧ k.rpc.state = .idle)) :
    Queueing c' := by
  intro hproper
  rw [hhistory] at hproper ⊢
  have hpast : ∀ n ∈ c.history, n.proper = true :=
    fun n hn => hproper n (List.mem_append_right _ (List.mem_append_right _ hn))
  obtain ⟨hheld, hflowing, hlawful⟩ := h hpast
  obtain ⟨hheld', hflow⟩ := hstep hpast hheld
  have hlawful' : History.Lawful (fun before n => Note.Queued before n) (notes ++ c.history) :=
    hlawful.append fun n hn _ => Note.queued_idle (hidle n hn) _
  -- What the queue is before the bytes are put in, if no fault is set.
  have hready : k.fault = false → k.fits bytes ∧ Flowing (k.append bytes)
      ((account (sinceClose c.history)).note (.append k.fault bytes .ok)) := by
    intro hf
    have hflowing := hflowing (hfault.symm.trans hf)
    obtain ⟨hspoken, hfresh⟩ := hflow _ hflowing
    have hcontent := hflowing.content
    have hfits : k.fits bytes := by
      refine Flowing.fits (k := { c.t.core with rpcQueued := k.rpcQueued }) ?_ (hspoken.trans (spoken_le _))
      rw [hqueued]
      exact hflowing
    rw [show c.t.core.rpcQueue = k.rpcQueue from hqueue.symm,
      show c.t.core.rpcQueued = k.rpcQueued from hqueued.symm] at hcontent
    exact ⟨hfits, Flowing.append hheld' hcontent hfits hspoken hfresh⟩
  have hsame : account (sinceClose (notes ++ c.history)) = account (sinceClose c.history) := by
    rw [sinceClose_append fun n hn => Note.idle_closes (hidle n hn), account_idle hidle]
  rw [hcore]
  refine ⟨hheld'.append bytes, fun hf => ?_, ?_⟩
  · have hf : k.fault = false := by
      rw [← k.append_fault bytes, ← hcore]
      exact hf
    obtain ⟨hfits, hnew⟩ := hready hf
    unfold Core.appendNotes
    rw [if_pos hfits]
    split
    · rw [List.cons_append, List.cons_append, List.nil_append, sinceClose_cons rfl, sinceClose_cons rfl,
        account, account, hsame]
      exact hnew
    · rw [List.cons_append, List.nil_append, sinceClose_cons rfl, account, hsame]
      exact hnew
  · unfold Core.appendNotes
    split
    · split
      · exact ⟨trivial, fun _ => rfl, hlawful'⟩
      · exact ⟨fun _ => rfl, hlawful'⟩
    · next hfits => exact ⟨fun hf => absurd (hready hf).1 hfits, hlawful'⟩

/-- A move in which the client makes a call and goes on to wait for its answer. -/
theorem Queueing.say (h : Queueing c) {o : Rpc.Outcome} {s e : Rpc.State} (hopen : s ≠ .idle ∧ s ≠ .failed)
    (hstate : c.t.rpc.state = s) (hstate' : o.rpc.state = e)
    (hcapability : o.rpc.capability = c.t.rpc.capability) (hlength : o.n ≤ Rpc.txMax)
    (hspoken : spoken s + Rpc.txMax ≤ spoken e)
    (hcore : c'.t.core = { c.t.core with rpc := o.rpc }.append (Rpc.Outcome.bytes o))
    (hhistory : c'.history = { c.t.core with rpc := o.rpc }.appendNotes (Rpc.Outcome.bytes o) ++ c.history) :
    Queueing c' := by
  refine h.append [] hcore hhistory (by simp) rfl rfl rfl fun _ hheld =>
    ⟨?_, fun g hflowing => ⟨?_, fun hc hs => ?_⟩⟩
  · refine ⟨hheld.closing, fun _ => ?_, hheld.room, hheld.wiped, hheld.vacant, hheld.asked⟩
    change o.rpc.capability < 2 ^ 32
    rw [hcapability]
    refine hheld.capability ?_
    change c.t.rpc.state ≠ .failed
    rw [hstate]
    exact hopen.2
  · have hsaid : g.produced.length ≤ spoken c.t.rpc.state := hflowing.spoken
    change g.produced.length + (Rpc.Outcome.bytes o).length ≤ spoken o.rpc.state
    rw [hstate] at hsaid
    rw [length_bytes, hstate']
    omega
  · have hidle : c.t.rpc.state = .idle := (hflowing.fresh hc hs).2
    exact absurd (hstate.symm.trans hidle) hopen.1

theorem Drift.queueing (hd : Drift c c') (h : Queueing c) : Queueing c' := by
  obtain ⟨l, hcore, -⟩ := hd.core
  obtain ⟨notes, hhistory, hplain⟩ := hd.history
  refine h.same notes hhistory (fun n hn => Note.idle_of_plain (hplain n hn)) ?_ ?_
  · rw [hcore]
    rfl
  · exact fun hf => (congrArg Core.fault hcore).symm.trans hf

/-- A callback keeps the queue exact. -/
theorem Call.queueing {call : Callback} (hmem : .callback call ∈ c.history) (hcall : Call call c c')
    (h : Queueing c) : Queueing c' := by
  -- A callback is for a stream.
  have hstream : (∀ n ∈ c.history, n.proper = true) → call.stream ≠ 0 := by
    intro hproper
    have hcall := hproper _ hmem
    cases call <;> simp [Note.proper] at hcall
    all_goals first | exact hcall | exact hcall.1
  cases hcall with
  | drift hd => exact hd.queueing h
  | fault hcore hhistory =>
    refine h.same [] hhistory (by simp) ?_ fun hf => ?_
    · rw [hcore]
      rfl
    · cases (congrArg Core.fault hcore).symm.trans hf
  | @begin r l notes k hreq hcontrol hstopping _ hplain hk hcore hhistory =>
    obtain ⟨-, hrpc, hlength⟩ := Rpc.rpcBegin_sent (r := Rpc.rpcInit) zeros rpcBegin_ok
    rw [hrpc] at hk
    subst hk hreq
    refine h.append notes hcore hhistory (fun n hn => Note.idle_of_plain (hplain n hn)) rfl rfl rfl
      fun hproper hheld => ⟨?_, fun g hflowing => ⟨?_, fun hc => absurd hc (hstream hproper)⟩⟩
    · exact ⟨hheld.closing, fun _ => (by decide : Rpc.rpcInit.capability < 2 ^ 32), hheld.room,
        hheld.wiped, fun hc => absurd hc (hstream hproper), hheld.asked⟩
    · rw [(hflowing.fresh hcontrol hstopping).1, length_bytes]
      simpa [spoken] using hlength
  | @receive frame o k ho hk hcore hhistory =>
    subst hk
    refine h.append [.rpcReceive _ _ _] hcore hhistory (by simp [Note.idle]) rfl rfl rfl
      fun _ hheld => ⟨?_, fun g hflowing => ⟨?_, fun hc hs => ?_⟩⟩
    · refine ⟨hheld.closing, ?_, hheld.room, hheld.wiped, hheld.vacant, hheld.asked⟩
      rw [ho]
      exact (Rpc.rpcReceive_acts zeros le_rfl hheld.capability frame).capability_lt hheld.capability
    · have hsaid := spoken_receive hheld.capability frame
      have := hflowing.spoken
      rw [length_bytes, ho]
      exact (Nat.add_le_add_right this _).trans hsaid
    · -- Before the control stream there is no client to hear anything.
      obtain ⟨hnone, hidle⟩ := hflowing.fresh hc hs
      have hdeaf : c.t.rpc.state.deaf = true := by
        rw [show c.t.rpc.state = .idle from hidle]
        rfl
      have hquiet : o.n = 0 ∧ o.rpc = c.t.rpc := by
        rw [ho]
        exact Rpc.rpcReceive_deaf zeros frame hdeaf
      obtain ⟨hn, hr⟩ := hquiet
      refine ⟨?_, ?_⟩
      · rw [hnone, Rpc.Outcome.bytes, hn]
        rfl
      · change o.rpc.state = .idle
        rw [hr]
        exact hidle
  | @register cred opt o k ho hok hk hcore hhistory =>
    subst hk
    rw [ho] at hok
    obtain ⟨hready, hrpc, hlength⟩ := Rpc.rpcRegister_sent zeros hok
    rw [← ho] at hrpc hlength
    exact h.say (e := .registering) (by decide) hready (by rw [hrpc]) (by rw [hrpc]) hlength (by decide)
      hcore hhistory
  | @read capacity hread hreset hcore hhistory =>
    subst hread
    refine h.note hhistory rfl fun hresponse hproper hheld => ?_
    have hcontrol : c.t.core.controlStream ≠ 0 := hstream hproper
    have hcapacity : 0 < capacity := by
      have := hproper _ hmem
      simp [Note.proper] at this
      exact this.2
    rw [hcore]
    refine ⟨hheld.read hresponse hcontrol capacity, fun hflowing => ⟨fun hf => ?_, fun hf => ?_⟩⟩
    · exact (hflowing hf).ends_iff capacity
    · exact (hflowing ((congrArg Core.fault hcore).symm.trans hf)).read hresponse hcontrol hcapacity
  | respond hcontrol hcore hhistory =>
    refine h.idle [] hhistory (by simp) fun hproper hheld => ?_
    have hcontrol : c.t.core.controlStream ≠ 0 := fun hc => hstream hproper (hcontrol.trans hc)
    rw [hcore]
    refine ⟨hheld.mark hcontrol (fun _ => rfl) fun _ _ => rfl, fun hf => ⟨?_, fun g hflowing => ?_⟩⟩
    · exact (congrArg Core.fault hcore).symm.trans hf
    · exact hflowing.mark (fun _ => rfl) fun _ hr => hr
  | reset hcontrol hcore hhistory =>
    refine h.idle [] hhistory (by simp) fun hproper hheld => ?_
    have hcontrol : c.t.core.controlStream ≠ 0 := fun hc => hstream hproper (hcontrol.trans hc)
    rw [hcore]
    refine ⟨hheld.mark hcontrol (fun _ => rfl) fun _ hr => hr, fun hf => ⟨?_, fun g hflowing => ?_⟩⟩
    · exact (congrArg Core.fault hcore).symm.trans hf
    · exact hflowing.mark (fun _ => rfl) fun _ hr => by cases hr
  | close hcore hhistory =>
    refine h.idle [] hhistory (by simp) fun _ hheld => ?_
    rw [hcore]
    refine ⟨hheld.closeControl, fun hf => ?_⟩
    have hf : c.t.core.closeControl.fault = false := (congrArg Core.fault hcore).symm.trans hf
    refine ⟨?_, fun g hflowing => hflowing.closeControl hheld hf⟩
    exact (Bool.or_eq_false_iff.1 hf).1
  | update hcore hhistory =>
    refine h.same [] hhistory (by simp) ?_ fun hf => (congrArg Core.fault hcore).symm.trans hf
    rw [hcore]
    rfl

/-- Every move keeps the queue exact. -/
theorem Move.queueing (hmove : Move c c') (h : Queueing c) : Queueing c' := by
  cases hmove with
  | drift hd => exact hd.queueing h
  | call hmem hcall => exact hcall.queueing (List.takeWhile_subset _ hmem) h
  | returned hcore hhistory =>
    refine h.note hhistory rfl fun _ _ hheld => ?_
    rw [hcore]
    refine ⟨hheld, fun hflowing => ⟨fun hf => (hflowing hf).exact hheld, fun hf => ?_⟩⟩
    exact hflowing ((congrArg Core.fault hcore).symm.trans hf)
  | @unregister o k ho hok hk hcore hhistory =>
    subst hk
    rw [ho] at hok
    obtain ⟨hstate, hrpc, hlength⟩ := Rpc.rpcUnregister_sent zeros hok
    rw [← ho] at hrpc hlength
    exact h.say (e := .unregistering) (by decide) hstate (by rw [hrpc]) (by rw [hrpc]) hlength (by decide)
      hcore hhistory
  | stop hcore hhistory =>
    refine h.idle [] hhistory (by simp) fun _ hheld => ?_
    rw [hcore]
    refine ⟨⟨hheld.closing, hheld.capability, hheld.room, hheld.wiped, hheld.vacant, hheld.asked⟩,
      fun hf => ⟨(congrArg Core.fault hcore).symm.trans hf, fun g hflowing => ?_⟩⟩
    exact ⟨hflowing.content, hflowing.spoken, fun _ hs => (by cases hs), hflowing.woken⟩
  | apply _ _ _ _ _ hfault hcore _ _ hhistory =>
    refine h.same [_, _, _] hhistory (by simp [Note.idle]) ?_ fun hf => ?_
    · rw [hcore]
      rfl
    · by_contra hno
      have hf' := (congrArg Core.fault hcore).symm.trans hf
      rw [hfault (by simpa using hno)] at hf'
      cases hf'
  | tlsRead _ hcore hhistory | memSend _ hcore hhistory | failed _ _ _ hcore hhistory
  | wait _ _ _ hcore hhistory =>
    refine h.same [_] hhistory (by simp [Note.idle]) ?_ fun hf => (congrArg Core.fault hcore).symm.trans hf
    rw [hcore]
  | output hh2 _ hcore hhistory | wrote hh2 _ _ hcore hhistory =>
    refine h.same [_] hhistory (by simp [Note.idle]) ?_ fun hf => (congrArg Core.fault hcore).symm.trans hf
    obtain ⟨l, hl⟩ := Option.isSome_iff_exists.1 hh2
    rw [hcore]
    unfold Core.queue Core.link
    rw [hl, show c.t.core.h2 = some l from hl]
    rfl
  | stall _ _ hcore hhistory =>
    refine h.same [_, _] hhistory (by simp [Note.idle]) ?_
      fun hf => (congrArg Core.fault hcore).symm.trans hf
    rw [hcore]
    rfl
  | link hnone hcore hhistory =>
    refine h.same [] hhistory (by simp) ?_ fun hf => (congrArg Core.fault hcore).symm.trans hf
    have hlink : c.t.core.link = {} := congrArg (·.getD {}) hnone
    rw [hcore]
    unfold Core.queue
    rw [hlink]
    rfl
  | @close l notes hplain hcore hhistory =>
    intro hproper
    rw [hhistory] at hproper ⊢
    obtain ⟨-, -, hlawful⟩ := h fun n hn => hproper n (List.mem_cons_of_mem _ (List.mem_append_right _ hn))
    rw [hcore]
    exact ⟨.closed l _, fun _ => .closed l _, trivial, hlawful.append fun n hn _ =>
      Note.queued_idle (Note.idle_of_plain (hplain n hn)) _⟩
  | restart hsince _ hcore hhistory =>
    intro hproper
    rw [hhistory] at hproper ⊢
    obtain ⟨-, -, hlawful⟩ := h hproper
    rw [hcore, hsince]
    exact ⟨.closed _ _, fun _ => .closed _ _, hlawful⟩

end

/-- The queue of the control stream: in every run with proper callbacks, until a fault is set, what has
been handed out and what the queue holds make up all that the client has said, in order; the queue
has room for every message and is zero beyond its end; the end is signalled exactly when the client
has closed and everything is handed out; and while the control stream waits and has not been reset,
nothing is in the queue and the client has not closed. -/
theorem control_queue_exact {s : Setup} {w : World} (h : Reach s w)
    (hproper : ∀ n ∈ w.history, n.proper = true) :
    (w.t.fault = false → QueueExact w.t (account (sinceClose w.history))) ∧
      ∀ later n before, w.history = later ++ n :: before → n.Queued before := by
  have hqueueing : Queueing w.ctx := by
    refine h.keeps (fun t l stopping hcore _ => ?_) fun c c' hmove => hmove.queueing
    rw [hcore]
    exact ⟨.closed l stopping, fun _ => .closed l stopping, trivial⟩
  obtain ⟨hheld, hflowing, hlawful⟩ := hqueueing hproper
  refine ⟨fun hf => (hflowing hf).exact hheld, fun later n before heq => ?_⟩
  rw [show w.ctx.history = later ++ n :: before from heq] at hlawful
  exact hlawful.split

/-- A run in which the tunnel is registered, what it has said is handed out, and then the control
stream waits; an output is left to send. -/
def sampleWaiting : List Oracle :=
  sampleConnect ++ [{ sampleReady with
    reads := [.bytes [.request ⟨1, .control, [], false⟩, .data 1 sampleBootstrap false,
      .data 1 sampleRegistered false] true]
    outputs := [([.read 1 2048], [1]), ([.read 1 2048], []), ([], [2])]
    writes := [.wrote 1] }]

theorem control_queue_exact_sample :
    ∃ w, w = sampleWorld sampleWaiting ∧ (account (sinceClose w.history)).produced ≠ [] ∧
      w.t.link.deferred = true ∧ w.t.rpcQueued = 0 ∧
      (account (sinceClose w.history)).handed = (account (sinceClose w.history)).produced := by
  obtain ⟨w, hw⟩ : ∃ w, w = sampleWorld sampleWaiting := ⟨_, rfl⟩
  have hproper : w.history.all Note.proper = true := by
    rw [hw]
    decide +kernel
  have hstate : w.t.fault = false ∧ w.t.link.deferred = true ∧ w.t.link.reset = false := by
    rw [hw]
    decide +kernel
  have hsaid : (account (sinceClose w.history)).produced ≠ [] := by
    rw [hw]
    decide +kernel
  have hreach : Reach sampleSetup w := by
    rw [hw]
    exact sampleWorld_reach _
  obtain ⟨hfault, hdeferred, hreset⟩ := hstate
  obtain ⟨hexact, -⟩ := control_queue_exact hreach (List.all_eq_true.1 hproper)
  have hempty := ((hexact hfault).woken hdeferred hreset).1
  have hcontent := (hexact hfault).content
  rw [hempty, Mem.read_zero, List.append_nil] at hcontent
  exact ⟨w, hw, hsaid, hdeferred, hempty, hcontent.symm⟩

/-- A control stream that has been reset is not woken: here its RST_STREAM cannot be sent yet, since an
output is left to send and the write has to wait, when the task is stopped. -/
theorem reset_control_waits :
    ∃ w, Reach sampleSetup w ∧ (∀ n ∈ w.history, n.proper = true) ∧ w.t.fault = false ∧
      w.t.link.deferred = true ∧ w.t.rpcQueued ≠ 0 := by
  obtain ⟨w, hw⟩ : ∃ w, w = sampleWorld (sampleWaiting ++
    [{ sampleReady with
        clock := List.replicate 8 5, reads := [.bytes [.reset 1] true], writes := [.wantWrite] },
      { sampleReady with clock := List.replicate 8 5, stop := true }]) := ⟨_, rfl⟩
  have hproper : w.history.all Note.proper = true := by
    rw [hw]
    decide +kernel
  have hstate : w.t.fault = false ∧ w.t.link.deferred = true ∧ w.t.rpcQueued ≠ 0 := by
    rw [hw]
    decide +kernel
  refine ⟨w, ?_, List.all_eq_true.1 hproper, hstate⟩
  rw [hw]
  exact sampleWorld_reach _

end EspCfTunnel.Task
