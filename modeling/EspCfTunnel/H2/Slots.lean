import EspCfTunnel.H2.Basic

/-!
# The slot table

The invariant of the slot table, in every state that nghttp2's events and the API calls reach. An
API call can come at any point, also inside a callback, so what it may do is said once (`Calm`): it
opens, admits and closes no stream, and never takes back a reset. `Good` is the invariant during an
event, relative to the session at some earlier point of it.
-/

namespace EspCfTunnel.H2

open EspCfTunnel StateLogic

/-! ## The invariant -/

/-- The slot is in use. -/
def Stream.occupied (s : Stream) : Bool := s.id ≠ 0

/-- The invariant of a session, with what nghttp2 keeps of it. -/
structure Inv (env : Env) (h : Session) : Prop where
  live : ∀ i, (h.streams i).id ≠ 0 → (h.streams i).id ∈ env.opened ∧ (h.streams i).id ∉ env.closed
  distinct : ∀ i j, (h.streams i).id ≠ 0 → (h.streams i).id = (h.streams j).id → i = j
  empty : ∀ i, (h.streams i).id = 0 → h.streams i = {}
  active : h.stats.activeStreams = Table.tally Stream.occupied h.streams
  count : ∀ kind, h.count kind ≤ h.limit kind
  response : ∀ i, (h.streams i).response = true → (h.streams i).headersDone = true
  deferred : ∀ i, (h.streams i).deferred = true → (h.streams i).response = true
  responses : ∀ id ∈ env.responses, id ∈ env.opened
  submitted : ∀ i, (h.streams i).id ∈ env.responses → (h.streams i).response = true
  block : ∀ i, env.block = some (h.streams i).id → h.headerStream = (h.streams i).id →
    (h.streams i).headersDone = false
  headers : h.headers.length ≤ headerMax ∧ h.headerUsed ≤ headerBytes
  zero : 0 ∉ env.opened
  closed : ∀ id ∈ env.closed, id ∈ env.opened
  current : ∀ id, env.block = some id → id ∈ env.opened

/-- What API calls leave as it is, and what they may only set. -/
structure Calm (h h' : Session) : Prop where
  stream : ∀ i, (h'.streams i).id = (h.streams i).id ∧ (h'.streams i).kind = (h.streams i).kind ∧
    (h'.streams i).headersDone = (h.streams i).headersDone ∧
    (h'.streams i).progressMs = (h.streams i).progressMs
  reset : ∀ i, (h.streams i).reset = true → (h'.streams i).reset = true
  response : ∀ i, (h.streams i).response = true → (h'.streams i).response = true
  headers : h'.headers = h.headers ∧ h'.headerUsed = h.headerUsed ∧ h'.headerStream = h.headerStream
  active : h'.stats.activeStreams = h.stats.activeStreams
  appLimit : h'.appLimit = h.appLimit

theorem Calm.refl (h : Session) : Calm h h :=
  ⟨fun _ => ⟨rfl, rfl, rfl, rfl⟩, fun _ h => h, fun _ h => h, ⟨rfl, rfl, rfl⟩, rfl, rfl⟩

theorem Calm.trans {h₁ h₂ h₃ : Session} (h : Calm h₁ h₂) (h' : Calm h₂ h₃) : Calm h₁ h₃ := by
  refine ⟨fun i => ?_, fun i hi => h'.reset i (h.reset i hi), fun i hi => h'.response i (h.response i hi),
    ?_, h'.active.trans h.active, h'.appLimit.trans h.appLimit⟩
  · obtain ⟨a, b, c, d⟩ := h.stream i
    obtain ⟨a', b', c', d'⟩ := h'.stream i
    exact ⟨a'.trans a, b'.trans b, c'.trans c, d'.trans d⟩
  · obtain ⟨a, b, c⟩ := h.headers
    obtain ⟨a', b', c'⟩ := h'.headers
    exact ⟨a'.trans a, b'.trans b, c'.trans c⟩

section
variable {env : Env} {h : Session}

theorem findStream_eq_some {id : Int} {i : Fin slots} (hf : h.findStream id = some i) :
    (h.streams i).id = id := by
  simpa using Table.of_lookup_eq_some hf

theorem findStream_eq_none {id : Int} (hf : h.findStream id = none) (i : Fin slots) :
    (h.streams i).id ≠ id := by
  simpa using Table.lookup_eq_none.1 hf i

@[simp] theorem setStream_self (h : Session) (i : Fin slots) (s : Stream) :
    (h.setStream i s).streams i = s := by
  simp [Session.setStream]

theorem setStream_of_ne (h : Session) {i j : Fin slots} (hij : j ≠ i) (s : Stream) :
    (h.setStream i s).streams j = h.streams j := by
  simp [Session.setStream, hij]

/-- What holds of the new stream and held of all streams holds of all. -/
theorem forall_setStream {P : Stream → Prop} {i : Fin slots} {s : Stream} (hs : P s)
    (hall : ∀ j, P (h.streams j)) (j : Fin slots) : P ((h.setStream i s).streams j) := by
  by_cases hj : j = i
  · subst hj
    rwa [setStream_self]
  · rw [setStream_of_ne h hj]
    exact hall j

/-- The invariant does not depend on the other fields of the session. -/
theorem Inv.congr {h' : Session} (hi : Inv env h) (hs : h'.streams = h.streams)
    (ha : h'.stats.activeStreams = h.stats.activeStreams) (hl : h'.appLimit = h.appLimit)
    (hh : h'.headers = h.headers ∧ h'.headerUsed = h.headerUsed ∧ h'.headerStream = h.headerStream) :
    Inv env h' := by
  obtain ⟨stats', appLimit', nowMs', streams', headers', used', stream', pending', error'⟩ := h'
  obtain ⟨rfl, rfl, rfl⟩ := hh
  dsimp only at hs ha hl
  subst hs hl
  exact ⟨hi.live, hi.distinct, hi.empty, ha.trans hi.active, hi.count, hi.response, hi.deferred,
    hi.responses, hi.submitted, hi.block, hi.headers, hi.zero, hi.closed, hi.current⟩

/-- The stream of a slot is replaced by one with the same id, and the limits are kept. -/
theorem Inv.replace (hi : Inv env h) (i : Fin slots) {s : Stream} (hsid : s.id = (h.streams i).id)
    (hid : s.id ≠ 0) (hcount : ∀ kind, (h.setStream i s).count kind ≤ h.limit kind)
    (hresponse : s.response = true → s.headersDone = true)
    (hdeferred : s.deferred = true → s.response = true)
    (hsubmitted : s.id ∈ env.responses → s.response = true)
    (hblock : env.block = some s.id → h.headerStream = s.id → s.headersDone = false) :
    Inv env (h.setStream i s) := by
  have hold : ∀ j, ((h.setStream i s).streams j).id = (h.streams j).id := by
    intro j
    by_cases hj : j = i
    · subst hj
      rw [setStream_self]
      exact hsid
    · rw [setStream_of_ne h hj]
  refine ⟨fun j hj => ?_, fun j k hj hjk => ?_,
    forall_setStream (P := fun s => s.id = 0 → s = {}) (fun h0 => absurd h0 hid) hi.empty, ?_, hcount,
    forall_setStream (P := fun s => s.response = true → s.headersDone = true) hresponse hi.response,
    forall_setStream (P := fun s => s.deferred = true → s.response = true) hdeferred hi.deferred,
    hi.responses,
    forall_setStream (P := fun s => s.id ∈ env.responses → s.response = true) hsubmitted hi.submitted,
    forall_setStream (P := fun s => env.block = some s.id → h.headerStream = s.id →
      s.headersDone = false) hblock hi.block, hi.headers, hi.zero, hi.closed, hi.current⟩
  · rw [hold] at hj ⊢
    exact hi.live j hj
  · rw [hold, hold] at hjk
    rw [hold] at hj
    exact hi.distinct j k hj hjk
  · rw [show (h.setStream i s).stats.activeStreams = h.stats.activeStreams from rfl, hi.active]
    refine Table.tally_congr fun j => ?_
    rw [Stream.occupied, Stream.occupied, hold]

/-- A change of one stream that keeps what `Calm` keeps. -/
theorem Inv.touch (hi : Inv env h) (i : Fin slots) {s : Stream}
    (hsame : s.id = (h.streams i).id ∧ s.kind = (h.streams i).kind ∧
      s.headersDone = (h.streams i).headersDone)
    (hreset : (h.streams i).reset = true → s.reset = true) (hid : s.id ≠ 0)
    (hresponse : s.response = true → s.headersDone = true)
    (hdeferred : s.deferred = true → s.response = true)
    (hsubmitted : s.id ∈ env.responses → s.response = true) : Inv env (h.setStream i s) := by
  obtain ⟨hsid, hkind, hdone⟩ := hsame
  refine hi.replace i hsid hid (fun kind => ?_) hresponse hdeferred hsubmitted fun hb hs => ?_
  · refine le_trans ?_ (hi.count kind)
    refine Table.tally_update_le fun ha => ?_
    simp only [Stream.admitted, decide_eq_true_eq] at ha ⊢
    obtain ⟨h1, h2, h3, h4⟩ := ha
    refine ⟨hsid ▸ h1, hdone ▸ h2, ?_, hkind ▸ h4⟩
    cases hr : (h.streams i).reset with
    | false => rfl
    | true => rw [hreset hr] at h3; cases h3
  · rw [hdone]
    rw [hsid] at hb hs
    exact hi.block i hb hs

/-- A stream may always stop to wait for data. -/
theorem Inv.undefer (hi : Inv env h) {i : Fin slots} (hid : (h.streams i).id ≠ 0) :
    Inv env (h.setStream i { h.streams i with deferred := false }) :=
  hi.touch i ⟨rfl, rfl, rfl⟩ (fun hr => hr) hid (hi.response i) (fun hd => by cases hd)
    (hi.submitted i)

theorem Calm.setStream (h : Session) (i : Fin slots) {s : Stream}
    (hsame : s.id = (h.streams i).id ∧ s.kind = (h.streams i).kind ∧
      s.headersDone = (h.streams i).headersDone ∧ s.progressMs = (h.streams i).progressMs)
    (hreset : (h.streams i).reset = true → s.reset = true)
    (hresponse : (h.streams i).response = true → s.response = true) : Calm h (h.setStream i s) := by
  refine ⟨fun j => ?_, fun j hj => ?_, fun j hj => ?_, ⟨rfl, rfl, rfl⟩, rfl, rfl⟩
  all_goals
    by_cases hj' : j = i
    · subst hj'
      rw [setStream_self]
      first | exact hsame | exact hreset hj | exact hresponse hj
    · rw [setStream_of_ne h hj']
      first | exact ⟨rfl, rfl, rfl, rfl⟩ | exact hj

end

/-! ## API calls keep the invariant -/

/-- The invariant while an event is handled, and what has happened since the session was `h₀`. -/
structure Good (env : Env) (h₀ : Session) (c : Ctx) : Prop where
  inv : Inv { env with responses := c.responses } c.h
  calm : Calm h₀ c.h
  valid : ∀ reply ∈ c.oracle.replies, ∀ call ∈ reply.calls, call.Valid

section
variable {env : Env} {h₀ : Session}

theorem note_good (n : Note) : Triple (Good env h₀) (note n) fun _ => Good env h₀ :=
  fun _ hc => ⟨hc.inv, hc.calm, hc.valid⟩

theorem submitRst_good : Triple (Good env h₀) submitRst fun _ => Good env h₀ :=
  fun _ hc => ⟨hc.inv, hc.calm, hc.valid⟩

theorem nghttp2_good : Triple (Good env h₀) nghttp2 fun _ => Good env h₀ :=
  fun _ hc => ⟨hc.inv, hc.calm, hc.valid⟩

/-- A stream found now is the one that was in the slot before. -/
theorem Good.found {c : Ctx} (hc : Good env h₀ c) {id : Int} {i : Fin slots}
    (hf : c.h.findStream id = some i) : (h₀.streams i).id = id :=
  (hc.calm.stream i).1.symm.trans (findStream_eq_some hf)

/-- A change of fields that the invariant does not mention. -/
theorem modifySession_good {f : Session → Session} (hs : ∀ h, (f h).streams = h.streams)
    (ha : ∀ h, (f h).stats.activeStreams = h.stats.activeStreams)
    (hl : ∀ h, (f h).appLimit = h.appLimit)
    (hh : ∀ h, (f h).headers = h.headers ∧ (f h).headerUsed = h.headerUsed ∧
      (f h).headerStream = h.headerStream) :
    Triple (Good env h₀) (modifySession f) fun _ => Good env h₀ := by
  intro c hc
  have hcalm : Calm c.h (f c.h) := by
    refine ⟨fun i => ?_, fun i hi => ?_, fun i hi => ?_, hh c.h, ha c.h, hl c.h⟩
    · rw [hs]
      exact ⟨rfl, rfl, rfl, rfl⟩
    all_goals rwa [hs]
  exact ⟨hc.inv.congr (hs c.h) (ha c.h) (hl c.h) (hh c.h), hc.calm.trans hcalm, hc.valid⟩

/-- A change of one stream by an API call. -/
theorem touch_good {i : Fin slots} {f : Session → Stream}
    (hf : ∀ c, Good env h₀ c → Inv { env with responses := c.responses } (c.h.setStream i (f c.h)) ∧
      Calm c.h (c.h.setStream i (f c.h))) :
    Triple (Good env h₀) (modifySession fun h => h.setStream i (f h)) fun _ => Good env h₀ :=
  fun c hc => ⟨(hf c hc).1, hc.calm.trans (hf c hc).2, hc.valid⟩

theorem markReset_good {i : Fin slots} (hid : (h₀.streams i).id ≠ 0) :
    Triple (Good env h₀) (markReset (some i)) fun _ => Good env h₀ := by
  refine Triple.get_bind fun _ _ => Triple.pre ?_ fun _ h => h.2
  refine Triple.bind (note_good _) fun _ => touch_good fun c hc => ⟨?_, ?_⟩
  · refine hc.inv.touch i ⟨rfl, rfl, rfl⟩ (fun _ => rfl) ?_ (hc.inv.response i) (hc.inv.deferred i)
      (hc.inv.submitted i)
    rw [(hc.calm.stream i).1]
    exact hid
  · exact Calm.setStream c.h i ⟨rfl, rfl, rfl, rfl⟩ (fun _ => rfl) fun hr => hr

theorem reset_good {id : Int} (hid : id ≠ 0) (error : Nat) :
    Triple (Good env h₀) (reset id error) fun _ => Good env h₀ := by
  have hreject : Triple (Good env h₀) (modifySession fun h => { h with
      stats := { h.stats with rejectedStreams := (h.stats.rejectedStreams + 1) % 2 ^ 32 } })
      fun _ => Good env h₀ :=
    modifySession_good (fun _ => rfl) (fun _ => rfl) (fun _ => rfl) fun _ => ⟨rfl, rfl, rfl⟩
  have hmemory : Triple (Good env h₀) (modifySession fun h => { h with error := .memory })
      fun _ => Good env h₀ :=
    modifySession_good (fun _ => rfl) (fun _ => rfl) (fun _ => rfl) fun _ => ⟨rfl, rfl, rfl⟩
  refine Triple.bind (note_good _) fun _ => Triple.get_bind fun c hc => ?_
  refine Triple.pre (Triple.ite (fun _ => Triple.ret fun _ h => h) fun _ => ?_) fun _ h => h.2
  refine Triple.bind submitRst_good fun ok => Triple.ite (fun _ => ?_) fun _ => ?_
  · exact Triple.bind hmemory fun _ => Triple.ret fun _ h => h
  cases hs : c.h.findStream id with
  | none =>
    refine Triple.bind (Q := fun _ => Good env h₀) (Triple.ret fun _ h => h) fun _ => ?_
    exact Triple.bind hreject fun _ => Triple.ret fun _ h => h
  | some i =>
    have hslot : (h₀.streams i).id ≠ 0 := by
      rw [hc.found hs]
      exact hid
    refine Triple.bind (markReset_good hslot) fun _ => ?_
    exact Triple.bind hreject fun _ => Triple.ret fun _ h => h

theorem respond_good {id : Int} (hid : id ≠ 0) (status : Nat) (headers : List Header) (origin : Bool) :
    Triple (Good env h₀) (respond id status headers origin) fun _ => Good env h₀ := by
  refine Triple.bind (note_good _) fun _ => ?_
  refine Triple.ite (fun _ => Triple.ret fun _ h => h) fun _ => Triple.get_bind fun c hc => ?_
  dsimp only
  cases hs : c.h.findStream id with
  | none => exact Triple.ret fun _ h => h.2
  | some i =>
    refine Triple.ite (fun _ => Triple.ret fun _ h => h.2) fun hopen => ?_
    cases Headers.headersEncode headers Headers.wireMax with
    | error rc => exact Triple.ret fun _ h => h.2
    | ok wire =>
      refine Triple.ite (fun _ => Triple.ret fun _ h => h.2) fun _ => ?_
      refine Triple.bind (nghttp2_good.pre fun _ h => h.2) fun ok => ?_
      refine Triple.ite (fun _ => Triple.ret fun _ h => h) fun _ => ?_
      -- The response is recorded by nghttp2 and by the slot at once.
      intro c' hc'
      have hdone : (c'.h.streams i).headersDone = true := by
        rw [(hc'.calm.stream i).2.2.1, ← (hc.calm.stream i).2.2.1]
        by_contra hno
        exact hopen (Or.inl (by simpa using hno))
      have hsid : (c'.h.streams i).id = id := by
        rw [(hc'.calm.stream i).1, hc.found hs]
      have hbase : Inv { env with responses := id :: c'.responses } (c'.h.setStream i
          { c'.h.streams i with response := true }) := by
        have hold := hc'.inv.touch i (s := { c'.h.streams i with response := true })
          ⟨rfl, rfl, rfl⟩ (fun hr => hr) (by rw [hsid]; exact hid) (fun _ => hdone) (fun _ => rfl)
          fun _ => rfl
        refine ⟨hold.live, hold.distinct, hold.empty, hold.active, hold.count, hold.response,
          hold.deferred, fun id' hmem => ?_, fun j hmem => ?_, hold.block, hold.headers, hold.zero,
          hold.closed, hold.current⟩
        · rcases List.mem_cons.1 hmem with rfl | hmem
          · have := hc'.inv.live i (by rw [hsid]; exact hid)
            rw [hsid] at this
            exact this.1
          · exact hold.responses id' hmem
        · rcases List.mem_cons.1 hmem with heq | hmem
          · have hj : j = i := by
              have hjid : (c'.h.streams j).id = id := by
                by_cases hj : j = i
                · rw [hj, hsid]
                · rwa [setStream_of_ne _ hj] at heq
              exact (hc'.inv.distinct i j (by rw [hsid]; exact hid) (by rw [hsid, hjid])).symm
            rw [hj, setStream_self]
          · exact hold.submitted j hmem
      have hcalm : Calm c'.h (c'.h.setStream i { c'.h.streams i with response := true }) :=
        Calm.setStream _ i ⟨rfl, rfl, rfl, rfl⟩ (fun hr => hr) fun _ => rfl
      exact ⟨hbase, hc'.calm.trans hcalm, hc'.valid⟩

theorem resume_good {id : Int} (hid : id ≠ 0) :
    Triple (Good env h₀) (resume id) fun _ => Good env h₀ := by
  refine Triple.bind (note_good _) fun _ => Triple.get_bind fun c hc => ?_
  dsimp only
  cases hs : c.h.findStream id with
  | none => exact Triple.ret fun _ h => h.2
  | some i =>
    refine Triple.ite (fun _ => Triple.ret fun _ h => h.2) fun _ => ?_
    refine Triple.ite (fun _ => Triple.ret fun _ h => h.2) fun _ => ?_
    refine Triple.bind (nghttp2_good.pre fun _ h => h.2) fun ok => ?_
    refine Triple.ite (fun _ => Triple.ret fun _ h => h) fun _ => ?_
    refine Triple.bind (touch_good fun c' hc' => ⟨?_, ?_⟩) fun _ => Triple.ret fun _ h => h
    · refine hc'.inv.undefer ?_
      rw [(hc'.calm.stream i).1, hc.found hs]
      exact hid
    · exact Calm.setStream c'.h i ⟨rfl, rfl, rfl, rfl⟩ (fun hr => hr) fun hr => hr

theorem tickSlot_good (now : Nat) (i : Fin slots) :
    Triple (Good env h₀) (tickSlot now i) fun _ => Good env h₀ := by
  refine Triple.get_bind fun c hc => ?_
  refine Triple.ite (fun hidle => ?_) fun _ => Triple.ret fun _ h => h.2
  have hid : (c.h.streams i).id ≠ 0 := by
    simp only [Stream.idle, decide_eq_true_eq] at hidle
    exact hidle.1
  exact Triple.bind ((reset_good hid 8).pre fun _ h => h.2) fun _ => Triple.ret fun _ h => h

theorem tickSlots_good (now : Nat) (l : List (Fin slots)) :
    Triple (Good env h₀) (tickSlots now l) fun _ => Good env h₀ := by
  induction l with
  | nil => exact Triple.ret fun _ h => h
  | cons i l ih => exact Triple.bind (tickSlot_good now i) fun _ => ih

/-- Every valid API call keeps the invariant. -/
theorem Call.good {call : Call} (hv : call.Valid) :
    Triple (Good env h₀) call.run fun _ => Good env h₀ := by
  cases call with
  | reset id error => exact Triple.bind (reset_good hv error) fun _ => Triple.ret fun _ h => h
  | respond id status headers origin =>
    exact Triple.bind (respond_good hv status headers origin) fun _ => Triple.ret fun _ h => h
  | resume id => exact Triple.bind (resume_good hv) fun _ => Triple.ret fun _ h => h
  | shutdown =>
    refine Triple.bind (Triple.bind (note_good _) fun _ => ?_) fun _ => Triple.ret fun _ h => h
    refine Triple.bind (modifySession_good (fun _ => rfl) (fun _ => rfl) (fun _ => rfl)
      fun _ => ⟨rfl, rfl, rfl⟩) fun _ => ?_
    refine Triple.bind nghttp2_good fun ok => ?_
    exact Triple.ite (fun _ => Triple.ret fun _ h => h) fun _ => Triple.ret fun _ h => h
  | sent n =>
    refine Triple.bind (Triple.bind (note_good _) fun _ => ?_) fun _ => Triple.ret fun _ h => h
    refine Triple.get_bind fun c hc => Triple.pre ?_ fun _ h => h.2
    refine Triple.ite (fun _ => Triple.ret fun _ h => h) fun _ => ?_
    refine Triple.bind (modifySession_good (fun _ => rfl) (fun _ => rfl) (fun _ => rfl)
      fun _ => ⟨rfl, rfl, rfl⟩) fun _ => Triple.ret fun _ h => h
  | tick now =>
    refine Triple.bind (note_good _) fun _ => ?_
    refine Triple.bind (modifySession_good (fun _ => rfl) (fun _ => rfl) (fun _ => rfl)
      fun _ => ⟨rfl, rfl, rfl⟩) fun _ => tickSlots_good now _

theorem runCalls_triple {P : Ctx → Prop} {calls : List Call}
    (hcalls : ∀ call ∈ calls, Triple P call.run fun _ => P) :
    Triple P (runCalls calls) fun _ => P := by
  induction calls with
  | nil => exact Triple.ret fun _ h => h
  | cons call calls ih =>
    exact Triple.bind (hcalls call List.mem_cons_self) fun _ =>
      ih fun c hc => hcalls c (List.mem_cons_of_mem _ hc)

/-- A callback keeps what its note and the API calls it makes keep. -/
theorem callback_triple {P : Ctx → Prop} {n : Note} (hnote : Triple P (note n) fun _ => P)
    (hreturn : ∀ result, Triple P (note (.returned n result)) fun _ => P)
    (hreplies : ∀ c, P c → P { c with oracle := { c.oracle with replies := c.oracle.replies.tail } })
    (hcalls : ∀ c, P c → ∀ call ∈ (c.oracle.replies.headD {}).calls, Triple P call.run fun _ => P) :
    Triple P (callback n) fun _ => P := by
  refine Triple.bind hnote fun _ => Triple.get_bind fun c hc => ?_
  refine Triple.bind (Q := fun _ => P) (fun _ _ => hreplies c hc) fun _ => ?_
  refine Triple.bind (runCalls_triple (hcalls c hc)) fun _ => ?_
  exact Triple.bind (hreturn _) fun _ => Triple.ret fun _ h => h

theorem Good.reply {c : Ctx} (hc : Good env h₀ c) :
    ∀ call ∈ (c.oracle.replies.headD {}).calls, call.Valid := by
  cases hr : c.oracle.replies with
  | nil => intro call hcall; cases hcall
  | cons reply rest => exact hc.valid reply (by rw [hr]; exact List.mem_cons_self)

theorem Good.replies {c : Ctx} (hc : Good env h₀ c) :
    Good env h₀ { c with oracle := { c.oracle with replies := c.oracle.replies.tail } } :=
  ⟨hc.inv, hc.calm, fun reply hr => hc.valid reply (List.mem_of_mem_tail hr)⟩

/-- A callback keeps the invariant, whatever API calls it makes. -/
theorem callback_good (n : Note) : Triple (Good env h₀) (callback n) fun _ => Good env h₀ :=
  callback_triple (note_good n) (fun _ => note_good _) (fun _ hc => hc.replies) fun _ hc call hcall =>
    Call.good (hc.reply call hcall)

theorem resetStatus_good {id : Int} (hid : id ≠ 0) (error : Nat) :
    Triple (Good env h₀) (resetStatus id error) fun _ => Good env h₀ :=
  Triple.bind (reset_good hid error) fun _ => Triple.ret fun _ h => h

end

/-! ## Events keep the invariant -/

section
variable {env : Env} {h : Session}

theorem Inv.good (hi : Inv env h) (o : Oracle)
    (hv : ∀ reply ∈ o.replies, ∀ call ∈ reply.calls, call.Valid) (log : List Note) :
    Good env h ⟨h, o, env.responses, log⟩ := ⟨hi, .refl h, hv⟩

/-- nghttp2 enters a header block; no header stream is set yet. -/
theorem Inv.enter (hi : Inv env h) {id : Int} {opened : List Int} (hmem : id ∈ opened)
    (hsub : ∀ x ∈ env.opened, x ∈ opened) (hzero : 0 ∉ opened) :
    Inv { env with opened, block := some id } { h with headerStream := 0 } := by
  refine ⟨fun i hne => ⟨hsub _ (hi.live i hne).1, (hi.live i hne).2⟩, hi.distinct, hi.empty, hi.active,
    hi.count, hi.response, hi.deferred, fun x hx => hsub x (hi.responses x hx), hi.submitted,
    fun i hb hs => ?_, hi.headers, hzero, fun x hx => hsub x (hi.closed x hx), fun x hx => ?_⟩
  · have hb : some id = some (h.streams i).id := hb
    have hs : 0 = (h.streams i).id := hs
    rw [Option.some.inj hb, ← hs] at hmem
    exact absurd hmem hzero
  · obtain rfl : id = x := Option.some.inj hx
    exact hmem

/-- A free slot is taken by a new stream, whose header block begins. -/
theorem Inv.open (hi : Inv env h) {id : Int} (hid : id ≠ 0) (hnew : id ∉ env.opened) {i : Fin slots}
    (hfree : (h.streams i).id = 0) :
    Inv { env with opened := id :: env.opened, block := some id }
      { h.setStream i { id, progressMs := h.nowMs } with
        stats := { h.stats with activeStreams := (h.stats.activeStreams + 1) % 2 ^ 32 }
        headerStream := id
        headers := []
        headerUsed := 0 } := by
  obtain ⟨s, hs⟩ : ∃ s : Stream, s = { id, progressMs := h.nowMs } := ⟨_, rfl⟩
  have hsid : s.id = id := by rw [hs]
  have hplain : s.headersDone = false ∧ s.response = false ∧ s.deferred = false := by simp [hs]
  have hother : ∀ j, (h.streams j).id ≠ id := by
    intro j hj
    exact hnew (hj ▸ (hi.live j (by rw [hj]; exact hid)).1)
  have hactive := Table.tally_update Stream.occupied h.streams i s
  have htally := Table.tally_le Stream.occupied (Function.update h.streams i s)
  rw [← hs]
  refine ⟨?_, fun j k hj hjk => ?_, ?_, ?_, fun kind => ?_, ?_, ?_, fun x hx => ?_, ?_,
    fun j hb _ => ?_, ⟨Nat.zero_le _, Nat.zero_le _⟩, ?_, fun x hx => ?_, fun x hx => ?_⟩
  · refine forall_setStream (P := fun s => s.id ≠ 0 → s.id ∈ id :: env.opened ∧ s.id ∉ env.closed)
      (fun _ => ?_) fun j hj => ?_
    · rw [hsid]
      exact ⟨List.mem_cons_self, fun hc => hnew (hi.closed id hc)⟩
    · exact ⟨List.mem_cons_of_mem _ (hi.live j hj).1, (hi.live j hj).2⟩
  · by_cases hji : j = i
    · subst hji
      by_cases hki : k = j
      · exact hki.symm
      · dsimp only at hjk
        rw [setStream_self, setStream_of_ne h hki, hsid] at hjk
        exact absurd hjk.symm (hother k)
    · by_cases hki : k = i
      · subst hki
        dsimp only at hjk
        rw [setStream_self, setStream_of_ne h hji, hsid] at hjk
        exact absurd hjk (hother j)
      · dsimp only at hj hjk
        rw [setStream_of_ne h hji, setStream_of_ne h hki] at hjk
        rw [setStream_of_ne h hji] at hj
        exact hi.distinct j k hj hjk
  · refine forall_setStream (P := fun s => s.id = 0 → s = {}) (fun h0 => ?_) hi.empty
    rw [hsid] at h0
    exact absurd h0 hid
  · have hnow : Stream.occupied s = true := by simp [Stream.occupied, hsid, hid]
    have hbefore : Stream.occupied (h.streams i) = false := by simp [Stream.occupied, hfree]
    rw [hnow, hbefore] at hactive
    rw [hi.active]
    change (Table.tally Stream.occupied h.streams + 1) % 2 ^ 32 =
      Table.tally Stream.occupied (Function.update h.streams i s)
    simp only [if_true, Bool.false_eq_true, if_false] at hactive
    unfold slots at htally
    omega
  · refine le_trans (Table.tally_update_le fun ha => ?_) (hi.count kind)
    simp [Stream.admitted, hplain.1] at ha
  · exact forall_setStream (P := fun s => s.response = true → s.headersDone = true)
      (fun hr => by rw [hplain.2.1] at hr; cases hr) hi.response
  · exact forall_setStream (P := fun s => s.deferred = true → s.response = true)
      (fun hr => by rw [hplain.2.2] at hr; cases hr) hi.deferred
  · exact List.mem_cons_of_mem _ (hi.responses x hx)
  · refine forall_setStream (P := fun s => s.id ∈ env.responses → s.response = true) (fun hr => ?_)
      hi.submitted
    rw [hsid] at hr
    exact absurd (hi.responses id hr) hnew
  · have hb : some id = some ((h.setStream i s).streams j).id := hb
    change ((h.setStream i s).streams j).headersDone = false
    by_cases hji : j = i
    · subst hji
      rw [setStream_self]
      exact hplain.1
    · rw [setStream_of_ne h hji] at hb
      exact absurd (Option.some.inj hb).symm (hother j)
  · intro h0
    rcases List.mem_cons.1 h0 with h0 | h0
    · exact hid h0.symm
    · exact hi.zero h0
  · exact List.mem_cons_of_mem _ (hi.closed x hx)
  · obtain rfl : id = x := Option.some.inj hx
    exact List.mem_cons_self

theorem beginHeaders_inv {h₀ : Session} {id : Int} {request : Bool}
    (hlegal : env.Legal (.beginHeaders id request)) :
    Triple (Good env h₀) (beginHeaders id request) fun _ c =>
      Inv { env.next (.beginHeaders id request) with responses := c.responses } c.h := by
  obtain ⟨-, hid, hnew⟩ := hlegal
  intro c hc
  obtain ⟨c₁, hc₁⟩ : ∃ c₁ : Ctx, c₁ = { c with h := { c.h with headerStream := 0 } } := ⟨_, rfl⟩
  have hstart : modifySession (fun h => { h with headerStream := 0 }) c = ((), c₁) := by
    rw [hc₁]
    rfl
  have hvalid : ∀ reply ∈ c₁.oracle.replies, ∀ call ∈ reply.calls, call.Valid := by
    rw [hc₁]
    exact hc.valid
  unfold beginHeaders
  rw [run_bind_eq hstart]
  cases request with
  | false =>
    have hi : Inv { env with block := some id, responses := c₁.responses } c₁.h := by
      rw [hc₁]
      exact hc.inv.enter hnew (fun _ hx => hx) hc.inv.zero
    have hgood : Good { env with block := some id } c₁.h c₁ := ⟨hi, .refl _, hvalid⟩
    exact (resetStatus_good hid 1 c₁ hgood).inv
  | true =>
    rw [if_neg (by simp), run_bind, run_get]
    dsimp only
    have hzero : (0 : Int) ∉ id :: env.opened := by
      intro h0
      rcases List.mem_cons.1 h0 with h0 | h0
      · exact hid h0.symm
      · exact hc.inv.zero h0
    have hi : Inv { env with opened := id :: env.opened, block := some id, responses := c₁.responses }
        c₁.h := by
      rw [hc₁]
      exact hc.inv.enter List.mem_cons_self (fun _ hx => List.mem_cons_of_mem _ hx) hzero
    cases hfree : c₁.h.findStream 0 with
    | none =>
      have hgood : Good { env with opened := id :: env.opened, block := some id } c₁.h c₁ :=
        ⟨hi, .refl _, hvalid⟩
      exact (resetStatus_good hid 7 c₁ hgood).inv
    | some i =>
      have hslot := findStream_eq_some hfree
      rw [hc₁] at hslot ⊢
      exact hc.inv.open hid hnew hslot

theorem onHeader_inv {h₀ : Session} {id : Int} {name value : Bytes}
    (hlegal : env.Legal (.header id name value)) :
    Triple (Good env h₀) (onHeader id name value) fun _ c =>
      Inv { env with responses := c.responses } c.h := by
  intro c hc
  have hmem : id ∈ env.opened := hc.inv.current id hlegal
  have hid : id ≠ 0 := fun h0 => hc.inv.zero (h0 ▸ hmem)
  unfold onHeader
  rw [run_bind, run_get]
  dsimp only
  by_cases hstream : c.h.headerStream ≠ id
  · rw [if_pos hstream]
    exact hc.inv
  rw [if_neg hstream]
  by_cases hrej : c.h.rejects name value = true
  · rw [if_pos hrej]
    have hi : Inv { env with responses := c.responses } { c.h with headerStream := 0 } := by
      have henter := hc.inv.enter hmem (fun _ hx => hx) hc.inv.zero
      rw [← show env.block = some id from hlegal] at henter
      exact henter
    have hgood : Good env { c.h with headerStream := 0 }
        { c with h := { c.h with headerStream := 0 } } := ⟨hi, .refl _, hc.valid⟩
    exact (resetStatus_good hid 11 _ hgood).inv
  · rw [if_neg hrej]
    have hroom : ¬ c.h.headers.length = headerMax ∧ ¬ name.length > headerBytes - c.h.headerUsed ∧
        ¬ value.length > headerBytes - c.h.headerUsed - name.length := by
      simp only [Session.rejects, decide_eq_true_eq, not_or] at hrej
      exact ⟨hrej.1, hrej.2.1, hrej.2.2.1⟩
    obtain ⟨hcount, hused⟩ := hc.inv.headers
    refine ⟨hc.inv.live, hc.inv.distinct, hc.inv.empty, hc.inv.active, hc.inv.count, hc.inv.response,
      hc.inv.deferred, hc.inv.responses, hc.inv.submitted, hc.inv.block, ⟨?_, ?_⟩, hc.inv.zero,
      hc.inv.closed, hc.inv.current⟩
    · change (c.h.headers ++ [_]).length ≤ headerMax
      rw [List.length_append, List.length_singleton]
      omega
    · change c.h.headerUsed + name.length + value.length ≤ headerBytes
      omega

/-- The header block is over. -/
theorem Inv.leave (hi : Inv env h) : Inv { env with block := none } h :=
  { hi with
    block := fun _ hb => by cases hb
    current := fun _ hb => by cases hb }

/-- A stream that is not admitted may be given any kind. -/
theorem Inv.classify (hi : Inv env h) {i : Fin slots} (hid : (h.streams i).id ≠ 0)
    (hdone : (h.streams i).headersDone = false) (kind : Kind) :
    Inv env (h.setStream i { h.streams i with kind }) := by
  refine hi.replace i rfl hid (fun kind' => ?_) (hi.response i) (hi.deferred i) (hi.submitted i)
    (hi.block i)
  refine le_trans (Table.tally_update_le fun ha => ?_) (hi.count kind')
  simp [Stream.admitted, hdone] at ha

/-- A stream is admitted where there is room for its kind. -/
theorem Inv.accept (hi : Inv env h) {i : Fin slots} (hid : (h.streams i).id ≠ 0)
    (hdone : (h.streams i).headersDone = false)
    (hroom : h.count (h.streams i).kind < h.limit (h.streams i).kind) (hblock : env.block = none) :
    Inv env (h.setStream i { h.streams i with headersDone := true }) := by
  refine hi.replace i rfl hid (fun kind => ?_) (fun _ => rfl) (hi.deferred i) (hi.submitted i)
    fun hb => by rw [hblock] at hb; cases hb
  obtain ⟨s, hs⟩ : ∃ s : Stream, s = { h.streams i with headersDone := true } := ⟨_, rfl⟩
  have hcount := Table.tally_update (·.admitted kind) h.streams i s
  have hbefore : (h.streams i).admitted kind = false := by simp [Stream.admitted, hdone]
  rw [← hs]
  change Table.tally (·.admitted kind) (Function.update h.streams i s) ≤ h.limit kind
  rw [hbefore, if_neg Bool.false_ne_true] at hcount
  have hold : Table.tally (·.admitted kind) h.streams ≤ h.limit kind := hi.count kind
  by_cases hkind : (h.streams i).kind = kind
  · subst hkind
    have hroom : Table.tally (·.admitted (h.streams i).kind) h.streams < h.limit _ := hroom
    split at hcount <;> omega
  · have hafter : s.admitted kind = false := by simp [hs, Stream.admitted, hkind]
    rw [hafter, if_neg Bool.false_ne_true] at hcount
    omega

/-- A step that changes the session in its own way, after which the invariant holds again. -/
theorem Good.restart {h₀ : Session} {c : Ctx} (hc : Good env h₀ c) {h' : Session}
    (hi : Inv { env with responses := c.responses } h') : Good env h' { c with h := h' } :=
  ⟨hi, .refl h', hc.valid⟩

/-- After the header block the slot still holds its stream. -/
theorem headerBlock_inv {h₀ : Session} (hblock : env.block = none) {i : Fin slots}
    (hid : (h₀.streams i).id ≠ 0) (hdone : (h₀.streams i).headersDone = false) (endStream : Bool) :
    Triple (Good env h₀) (headerBlock i endStream) fun _ c =>
      ∃ h₁, Good env h₁ c ∧ (h₁.streams i).id ≠ 0 := by
  intro c hc
  obtain ⟨hsid, -, hsdone, -⟩ := hc.calm.stream i
  rw [← hsid] at hid
  rw [← hsdone] at hdone
  unfold headerBlock
  rw [run_bind, run_get]
  dsimp only
  cases classify c.h.headers with
  | none =>
    exact ⟨h₀, Triple.bind (resetStatus_good hid 7) (fun _ => Triple.ret fun _ h => h) c hc, hsid ▸ hid⟩
  | some kind =>
    dsimp only
    obtain ⟨c₁, hc₁⟩ : ∃ c₁ : Ctx, c₁ = { c with
      h := c.h.setStream i { c.h.streams i with kind } } := ⟨_, rfl⟩
    have hkind : Good env c₁.h c₁ := by
      rw [hc₁]
      exact hc.restart (hc.inv.classify hid hdone kind)
    have hs₁ : c₁.h.streams i = { c.h.streams i with kind } := by rw [hc₁, setStream_self]
    have hid₁ : (c₁.h.streams i).id ≠ 0 := by
      rw [hs₁]
      exact hid
    rw [run_bind_eq (show modifySession _ c = ((), c₁) by rw [hc₁]; rfl), run_bind, run_get]
    dsimp only
    by_cases hfull : c₁.h.count kind ≥ c₁.h.limit kind
    · rw [if_pos hfull]
      exact ⟨c₁.h, Triple.bind (resetStatus_good hid 7) (fun _ => Triple.ret fun _ h => h) _ hkind,
        hid₁⟩
    obtain ⟨c₂, hc₂⟩ : ∃ c₂ : Ctx, c₂ = { c₁ with
      h := c₁.h.setStream i { c₁.h.streams i with headersDone := true } } := ⟨_, rfl⟩
    have haccept : Good env c₂.h c₂ := by
      have hroom : c₁.h.count (c₁.h.streams i).kind < c₁.h.limit (c₁.h.streams i).kind := by
        rw [hs₁]
        exact Nat.lt_of_not_le hfull
      rw [hc₂]
      exact hkind.restart (hkind.inv.accept hid₁ (by rw [hs₁]; exact hdone) hroom hblock)
    have hid₂ : (c₂.h.streams i).id ≠ 0 := by
      rw [hc₂, setStream_self]
      exact hid₁
    rw [if_neg hfull, run_bind_eq (show modifySession _ c₁ = ((), c₂) by rw [hc₂]; rfl)]
    -- The callback may make API calls; what it leaves is good relative to the admitted stream.
    have hcall := callback_good (.request ⟨(c.h.streams i).id, kind, c₁.h.headers, endStream⟩) c₂ haccept
    obtain ⟨reply, c', hrun⟩ : ∃ reply c', callback (.request ⟨(c.h.streams i).id, kind,
      c₁.h.headers, endStream⟩) c₂ = (reply, c') := ⟨_, _, rfl⟩
    rw [hrun] at hcall
    rw [run_bind_eq hrun]
    by_cases hrc : reply.result ≠ .ok
    · rw [if_pos hrc]
      exact ⟨c₂.h, Triple.bind (resetStatus_good hid 7) (fun _ => Triple.ret fun _ h => h) _ hcall,
        hid₂⟩
    rw [if_neg hrc]
    refine ⟨{ c'.h with headers := _, headerStream := 0 }, hcall.restart ?_, ?_⟩
    · refine { hcall.inv with block := fun _ hb => ?_, headers := ⟨?_, hcall.inv.headers.2⟩ }
      · have hb : env.block = some _ := hb
        rw [hblock] at hb
        cases hb
      · rw [List.length_map]
        exact hcall.inv.headers.1
    · change (c'.h.streams i).id ≠ 0
      rw [(hcall.calm.stream i).1]
      exact hid₂

theorem endOfStream_inv {h₀ : Session} {i : Fin slots} (hid : (h₀.streams i).id ≠ 0) (frame : Frame) :
    Triple (Good env h₀) (endOfStream i frame) fun _ => Good env h₀ := by
  refine Triple.ite (fun _ => ?_) fun _ => Triple.ret fun _ h => h
  refine Triple.get_bind fun c hc => ?_
  have hid : (c.h.streams i).id ≠ 0 := by
    rw [(hc.calm.stream i).1]
    exact hid
  refine Triple.bind ((callback_good _).pre fun _ h => h.2) fun reply => ?_
  exact Triple.ite (fun _ => resetStatus_good hid 8) fun _ => Triple.ret fun _ h => h

theorem Inv.frame {r : List Int} (hi : Inv { env with responses := r } h) (f : Frame) :
    Inv { env.next (.frame f) with responses := r } h := by
  by_cases ht : f.type = .headers
  · rw [show env.next (.frame f) = { env with block := none } from if_pos ht]
    exact hi.leave
  · rw [show env.next (.frame f) = env from if_neg ht]
    exact hi

@[simp] theorem activeStreams_frame (s : Stats) (type : FrameType) :
    (s.frame type).activeStreams = s.activeStreams := by
  cases type with
  | settings ack => cases ack <;> rfl
  | _ => rfl

theorem receivedFrame_inv {h₀ : Session} {f : Frame} (hlegal : env.Legal (.frame f)) :
    Triple (Good env h₀) (receivedFrame f) fun _ c =>
      Inv { env.next (.frame f) with responses := c.responses } c.h := by
  intro c hc
  obtain ⟨c₁, hc₁⟩ : ∃ c₁ : Ctx, c₁ = { c with
    h := { c.h with stats := c.h.stats.frame f.type } } := ⟨_, rfl⟩
  have hstats : Good env h₀ c₁ := by
    rw [hc₁]
    exact modifySession_good (f := fun h => { h with stats := h.stats.frame f.type }) (fun _ => rfl)
      (fun h => activeStreams_frame h.stats f.type) (fun _ => rfl) (fun _ => ⟨rfl, rfl, rfl⟩) c hc
  have hnext : Good (env.next (.frame f)) c₁.h c₁ := ⟨hstats.inv.frame f, .refl _, hstats.valid⟩
  have hfind : c.h.findStream f.stream = c₁.h.findStream f.stream := by
    rw [hc₁]
    rfl
  unfold receivedFrame
  rw [run_bind, run_get]
  dsimp only
  rw [run_bind_eq (show modifySession _ c = ((), c₁) by rw [hc₁]; rfl), hfind]
  cases hs : c₁.h.findStream f.stream with
  | none => exact hnext.inv
  | some i =>
    have hsid := findStream_eq_some hs
    dsimp only
    rw [run_bind, run_get]
    dsimp only
    by_cases hreset : (c₁.h.streams i).reset = true
    · rw [if_pos hreset]
      exact hnext.inv
    rw [if_neg hreset]
    by_cases hhead : f.type = .headers ∧ c₁.h.headerStream = f.stream
    · rw [if_pos hhead]
      have hblock : env.block = some f.stream := by
        have hl : if f.type = .headers then _ else _ := hlegal
        rwa [if_pos hhead.1] at hl
      have hid : (c₁.h.streams i).id ≠ 0 := by
        rw [hsid]
        exact fun h0 => hstats.inv.zero (h0 ▸ hstats.inv.current f.stream hblock)
      have hdone : (c₁.h.streams i).headersDone = false :=
        hstats.inv.block i (by rw [hsid]; exact hblock) (by rw [hsid]; exact hhead.2)
      have hleft : (env.next (.frame f)).block = none := by
        rw [show env.next (.frame f) = { env with block := none } from if_pos hhead.1]
      obtain ⟨h₂, hgood, hid₂⟩ := headerBlock_inv hleft hid hdone f.endStream c₁ hnext
      obtain ⟨result, c₂, hrun⟩ : ∃ result c₂, headerBlock i f.endStream c₁ = (result, c₂) :=
        ⟨_, _, rfl⟩
      rw [hrun] at hgood
      rw [run_bind_eq hrun]
      cases result with
      | some status => exact hgood.inv
      | none => exact (endOfStream_inv hid₂ f c₂ hgood).inv
    · rw [if_neg hhead]
      by_cases htype : f.type = .headers ∨ f.type = .data
      · have hid : (c₁.h.streams i).id ≠ 0 := by
          have hmem : f.stream ∈ env.opened := by
            have hl : if f.type = .headers then _ else _ := hlegal
            rcases htype with htype | htype
            · rw [if_pos htype] at hl
              exact hstats.inv.current f.stream hl
            · rw [if_neg (by rw [htype]; exact fun hne => FrameType.noConfusion hne)] at hl
              exact hl.2 htype
          rw [hsid]
          exact fun h0 => hstats.inv.zero (h0 ▸ hmem)
        exact (endOfStream_inv hid f c₁ hnext).inv
      · unfold endOfStream
        rw [if_neg fun h => htype h.1]
        exact hnext.inv

theorem deliver_inv {h₀ : Session} {id : Int} (hid : id ≠ 0) (fuel : Nat) (data : Bytes) :
    Triple (Good env h₀) (deliver id fuel data) fun _ => Good env h₀ := by
  induction fuel generalizing data with
  | zero => exact Triple.ret fun _ h => h
  | succ fuel ih =>
    refine Triple.ite (fun _ => Triple.ret fun _ h => h) fun _ => ?_
    refine Triple.bind (callback_good _) fun reply => Triple.ite (fun _ => ?_) fun _ => ih _
    exact Triple.bind (reset_good hid 8) fun _ => Triple.ret fun _ h => h

/-- The clock of a stream may be set at any time. -/
theorem Inv.progress (hi : Inv env h) {i : Fin slots} (hid : (h.streams i).id ≠ 0) (now : Nat) :
    Inv env (h.setStream i { h.streams i with progressMs := now }) :=
  hi.touch i ⟨rfl, rfl, rfl⟩ (fun hr => hr) hid (hi.response i) (hi.deferred i) (hi.submitted i)

/-- The idiom `nghttp2_…(…) ? NGHTTP2_ERR_CALLBACK_FAILURE : 0`. -/
theorem nghttp2_status_good {h₀ : Session} :
    Triple (Good env h₀) (do return if ← nghttp2 then Status.ok else .callbackFailure) fun _ =>
      Good env h₀ :=
  Triple.bind nghttp2_good fun _ => Triple.ret fun _ h => h

theorem receivedData_inv {h₀ : Session} {id : Int} {data : Bytes}
    (hlegal : env.Legal (.data id data)) :
    Triple (Good env h₀) (receivedData id data) fun _ c =>
      Inv { env with responses := c.responses } c.h := by
  intro c hc
  have hid : id ≠ 0 := fun h0 => hc.inv.zero (h0 ▸ hlegal.2)
  unfold receivedData
  rw [run_bind, run_get]
  dsimp only
  cases hs : c.h.findStream id with
  | none => exact (nghttp2_status_good c hc).inv
  | some i =>
    dsimp only
    by_cases hreset : (c.h.streams i).reset = true
    · rw [if_pos hreset]
      exact (nghttp2_status_good c hc).inv
    rw [if_neg hreset]
    have hgood := deliver_inv hid data.length data c hc
    obtain ⟨ok, c₁, hrun⟩ : ∃ ok c₁, deliver id data.length data c = (ok, c₁) := ⟨_, _, rfl⟩
    rw [hrun] at hgood
    rw [run_bind_eq hrun]
    cases ok with
    | false => exact hgood.inv
    | true =>
      have hid₁ : (c₁.h.streams i).id ≠ 0 := by
        rw [(hgood.calm.stream i).1, hc.found hs]
        exact hid
      exact (nghttp2_status_good _ (hgood.restart (hgood.inv.progress hid₁ c₁.h.nowMs))).inv

/-- The slot of a closed stream is emptied. -/
theorem Inv.close (hi : Inv env h) {id : Int} (hid : id ≠ 0) (hmem : id ∈ env.opened) {i : Fin slots}
    (hsid : (h.streams i).id = id) {n : Nat} (hn : n + 1 = h.stats.activeStreams) :
    Inv { env with closed := id :: env.closed } { h.setStream i {} with
      stats := { h.stats with activeStreams := n } } := by
  have hother : ∀ j, j ≠ i → (h.streams j).id ≠ id := by
    intro j hj hjd
    exact hj (hi.distinct i j (by rw [hsid]; exact hid) (by rw [hsid, hjd])).symm
  refine ⟨fun j hj => ?_, fun j k hj hjk => ?_, ?_, ?_, fun kind => ?_, ?_, ?_, hi.responses, ?_, ?_,
    hi.headers, hi.zero, fun x hx => ?_, hi.current⟩
  · by_cases hji : j = i
    · subst hji
      exact absurd (by rw [setStream_self]) hj
    · dsimp only at hj ⊢
      rw [setStream_of_ne h hji] at hj ⊢
      refine ⟨(hi.live j hj).1, fun hc => ?_⟩
      rcases List.mem_cons.1 hc with hc | hc
      · exact hother j hji hc
      · exact (hi.live j hj).2 hc
  · dsimp only at hj hjk
    have hji : j ≠ i := by
      rintro rfl
      exact hj (by rw [setStream_self])
    rw [setStream_of_ne h hji] at hj hjk
    have hki : k ≠ i := by
      rintro rfl
      rw [setStream_self] at hjk
      exact hj hjk
    rw [setStream_of_ne h hki] at hjk
    exact hi.distinct j k hj hjk
  · exact forall_setStream (P := fun s => s.id = 0 → s = {}) (fun _ => rfl) hi.empty
  · have hcount := Table.tally_update Stream.occupied h.streams i {}
    have hbefore : Stream.occupied (h.streams i) = true := by simp [Stream.occupied, hsid, hid]
    have hafter : Stream.occupied {} = false := rfl
    rw [hbefore, hafter, if_pos rfl, if_neg Bool.false_ne_true] at hcount
    rw [hi.active] at hn
    change n = Table.tally Stream.occupied (Function.update h.streams i {})
    omega
  · refine le_trans (Table.tally_update_le fun ha => ?_) (hi.count kind)
    simp [Stream.admitted] at ha
  · exact forall_setStream (P := fun s => s.response = true → s.headersDone = true)
      (fun hr => by cases hr) hi.response
  · exact forall_setStream (P := fun s => s.deferred = true → s.response = true)
      (fun hr => by cases hr) hi.deferred
  · exact forall_setStream (P := fun s => s.id ∈ env.responses → s.response = true)
      (fun hr => absurd (hi.responses 0 hr) hi.zero) hi.submitted
  · exact forall_setStream (P := fun s => env.block = some s.id → h.headerStream = s.id →
      s.headersDone = false) (fun hb => absurd (hi.current 0 hb) hi.zero) hi.block
  · rcases List.mem_cons.1 hx with rfl | hx
    · exact hmem
    · exact hi.closed x hx

theorem closedStream_inv {h₀ : Session} {id : Int} {error : Nat}
    (hlegal : env.Legal (.closed id error)) :
    Triple (Good env h₀) (closedStream id error) fun _ c =>
      Inv { env.next (.closed id error) with responses := c.responses } c.h := by
  intro c hc
  have hid : id ≠ 0 := fun h0 => hc.inv.zero (h0 ▸ hlegal.1)
  unfold closedStream
  rw [run_bind, run_get]
  dsimp only
  cases hs : c.h.findStream id with
  | none =>
    refine { hc.inv with live := fun j hj => ⟨(hc.inv.live j hj).1, fun hmem => ?_⟩, closed := ?_ }
    · rcases List.mem_cons.1 hmem with hmem | hmem
      · exact findStream_eq_none hs j hmem
      · exact (hc.inv.live j hj).2 hmem
    · intro x hx
      rcases List.mem_cons.1 hx with rfl | hx
      · exact hlegal.1
      · exact hc.inv.closed x hx
  | some i =>
    have hgood := callback_good (.closed id error) c hc
    obtain ⟨reply, c₁, hrun⟩ : ∃ reply c₁, callback (.closed id error) c = (reply, c₁) := ⟨_, _, rfl⟩
    rw [hrun] at hgood
    dsimp only at hgood ⊢
    rw [run_bind_eq hrun]
    have hsid : (c₁.h.streams i).id = id := by
      rw [(hgood.calm.stream i).1]
      exact hc.found hs
    refine hgood.inv.close hid hlegal.1 hsid ?_
    have hpos : 0 < Table.tally Stream.occupied c₁.h.streams :=
      Table.tally_pos (i := i) (by simp [Stream.occupied, hsid, hid])
    have hle := Table.tally_le Stream.occupied c₁.h.streams
    rw [hgood.inv.active]
    unfold slots at hle
    omega

theorem readResponse_inv {h₀ : Session} {id : Int} {capacity : Nat}
    (hlegal : env.Legal (.read id capacity)) :
    Triple (fun c => Good env h₀ c ∧ c.responses = env.responses) (readResponse id capacity)
      fun _ c => Inv { env with responses := c.responses } c.h := by
  intro c ⟨hc, hresponses⟩
  have hmem : id ∈ env.responses := hlegal
  rw [← hresponses] at hmem
  have hid : id ≠ 0 := fun h0 => hc.inv.zero (h0 ▸ hc.inv.responses id hmem)
  unfold readResponse
  rw [run_bind, run_get]
  dsimp only
  cases hs : c.h.findStream id with
  | none => exact hc.inv
  | some i =>
    have hsid := findStream_eq_some hs
    have hresponse : (c.h.streams i).response = true := hc.inv.submitted i (hsid ▸ hmem)
    dsimp only
    by_cases hreset : (c.h.streams i).reset = true
    · rw [if_pos hreset]
      exact hc.inv
    obtain ⟨c₁, hc₁⟩ : ∃ c₁ : Ctx, c₁ = { c with
      h := c.h.setStream i { c.h.streams i with deferred := false } } := ⟨_, rfl⟩
    have hs₁ : c₁.h.streams i = { c.h.streams i with deferred := false } := by rw [hc₁, setStream_self]
    have hgood₁ : Good env c₁.h c₁ := by
      rw [hc₁]
      exact hc.restart (hc.inv.undefer (hsid ▸ hid))
    rw [if_neg hreset, run_bind_eq (show modifySession _ c = ((), c₁) by rw [hc₁]; rfl)]
    have hgood := callback_good (.read id (min capacity chunk)) c₁ hgood₁
    obtain ⟨reply, c₂, hrun⟩ : ∃ reply c₂, callback (.read id (min capacity chunk)) c₁ = (reply, c₂) :=
      ⟨_, _, rfl⟩
    rw [hrun] at hgood
    rw [run_bind_eq hrun]
    have hid₂ : (c₂.h.streams i).id ≠ 0 := by
      rw [(hgood.calm.stream i).1, hs₁]
      exact hsid ▸ hid
    have hresponse₂ : (c₂.h.streams i).response = true := by
      refine hgood.calm.response i ?_
      rw [hs₁]
      exact hresponse
    split
    · exact hgood.inv.touch i ⟨rfl, rfl, rfl⟩ (fun hr => hr) hid₂ (hgood.inv.response i)
        (fun _ => hresponse₂) (hgood.inv.submitted i)
    · split
      · exact hgood.inv
      · split
        · exact hgood.inv.progress hid₂ _
        · exact hgood.inv

/-- Whatever happens next, the invariant holds after it. -/
theorem Event.inv {h₀ : Session} {e : Event} (hlegal : env.Legal e) (hv : e.Valid) :
    Triple (fun c => Good env h₀ c ∧ c.responses = env.responses) e.run fun _ c =>
      Inv { env.next e with responses := c.responses } c.h := by
  intro c hc
  obtain ⟨hgood, -⟩ := id hc
  cases e with
  | clock now => exact hgood.inv.congr rfl rfl rfl ⟨rfl, rfl, rfl⟩
  | fault code error => exact hgood.inv.congr rfl rfl rfl ⟨rfl, rfl, rfl⟩
  | output bytes => exact hgood.inv.congr rfl rfl rfl ⟨rfl, rfl, rfl⟩
  | beginHeaders id request => exact beginHeaders_inv hlegal c hgood
  | header id name value => exact onHeader_inv hlegal c hgood
  | abandon id => exact hgood.inv.leave
  | frame f => exact receivedFrame_inv hlegal c hgood
  | data id bytes => exact receivedData_inv hlegal c hgood
  | closed id error => exact closedStream_inv hlegal c hgood
  | sentFrame type reason =>
    cases type with
    | goaway error last => exact hgood.inv.congr rfl rfl rfl ⟨rfl, rfl, rfl⟩
    | _ => exact hgood.inv
  | protocolError code => exact hgood.inv.congr rfl rfl rfl ⟨rfl, rfl, rfl⟩
  | invalidFrame type code =>
    refine hgood.inv.congr rfl ?_ rfl ⟨rfl, rfl, rfl⟩
    cases type <;> rfl
  | read id capacity => exact readResponse_inv hlegal c hc
  | call call => exact (Call.good hv c hgood).inv

end

/-! ## Runs -/

/-- A session that `cf_h2_create` returns has empty slots. -/
theorem Inv.create {apps limit : Nat} {h : Session} (hcreate : h2Create apps limit true = .ok h) :
    Inv {} h := by
  unfold h2Create at hcreate
  split at hcreate
  · cases hcreate
  · obtain rfl : { appLimit := apps : Session } = h := by simpa using hcreate
    have hcount : ∀ p : Stream → Bool, p {} = false → Table.tally p (fun _ : Fin slots => {}) = 0 := by
      intro p hp
      rw [Table.tally, List.length_eq_zero_iff, List.filter_eq_nil_iff]
      intro i _
      rw [hp]
      exact Bool.false_ne_true
    exact {
      live := fun _ hid => absurd rfl hid
      distinct := fun _ _ hid => absurd rfl hid
      empty := fun _ _ => rfl
      active := (hcount _ rfl).symm
      count := fun kind => (hcount _ (by simp [Stream.admitted])).trans_le (Nat.zero_le _)
      response := fun _ hr => Bool.noConfusion hr
      deferred := fun _ hr => Bool.noConfusion hr
      responses := fun _ hr => (List.not_mem_nil hr).elim
      submitted := fun _ hr => (List.not_mem_nil hr).elim
      block := fun _ hb => by cases hb
      headers := ⟨Nat.zero_le _, Nat.zero_le _⟩
      zero := List.not_mem_nil
      closed := fun _ hr => (List.not_mem_nil hr).elim
      current := fun _ hb => by cases hb }

theorem World.step_inv {w : World} {e : Event} {o : Oracle} (hi : Inv w.env w.h)
    (hlegal : w.env.Legal e) (hv : Valid e o) : Inv (w.step e o).env (w.step e o).h :=
  Event.inv hlegal hv.1 ⟨w.h, o, w.env.responses, []⟩ ⟨hi.good o hv.2 [], rfl⟩

theorem Reach.inv {w : World} (hw : Reach w) : Inv w.env w.h := by
  induction hw with
  | create hcreate => exact Inv.create hcreate
  | step e o _ hlegal hv ih => exact World.step_inv ih hlegal hv

/-- In every state of a session, the used slots have distinct ids and the free ones are empty; the
number of active streams is that of the used slots; there is room for every kind of stream; a stream
has a response only after its headers, and waits for data only after its response; and the header
block fits. -/
theorem slot_table {w : World} (hw : Reach w) :
    (∀ i j, (w.h.streams i).id ≠ 0 → (w.h.streams i).id = (w.h.streams j).id → i = j) ∧
      (∀ i, (w.h.streams i).id = 0 → w.h.streams i = {}) ∧
      w.h.stats.activeStreams = Table.tally (fun s => s.id ≠ 0) w.h.streams ∧
      w.h.stats.activeStreams ≤ 6 ∧
      (∀ kind, Table.tally (fun s => s.headersDone ∧ s.reset = false ∧ s.kind = kind) w.h.streams ≤
        if kind = .http then w.h.appLimit else 1) ∧
      (∀ i, ((w.h.streams i).response = true → (w.h.streams i).headersDone = true) ∧
        ((w.h.streams i).deferred = true → (w.h.streams i).response = true)) ∧
      w.h.headerUsed ≤ 8192 ∧ w.h.headers.length ≤ 48 := by
  have hi := hw.inv
  refine ⟨hi.distinct, hi.empty, hi.active, ?_, fun kind => ?_, fun i => ⟨hi.response i, hi.deferred i⟩,
    hi.headers.2, hi.headers.1⟩
  · rw [hi.active]
    exact Table.tally_le _ _
  · refine le_trans (Table.tally_mono fun i hs => ?_) (hi.count kind)
    simp only [Stream.admitted, decide_eq_true_eq] at hs ⊢
    refine ⟨fun h0 => ?_, hs⟩
    rw [hi.empty i h0] at hs
    cases hs.1

/-- Two requests, of which the second asks for a response to be read. -/
theorem slot_table_two : ∃ w, Reach w ∧ w.h.stats.activeStreams = 2 ∧
    (w.h.streams 1).deferred = true ∧
    (∀ i j, (w.h.streams i).id ≠ 0 → (w.h.streams i).id = (w.h.streams j).id → i = j) := by
  obtain ⟨h, hcreate⟩ : ∃ h, h2Create 4 8192 true = .ok h := ⟨_, rfl⟩
  obtain rfl : { appLimit := 4 : Session } = h := by simpa [h2Create] using hcreate
  let t : Trace := [(.beginHeaders 1 true, {}), (.frame ⟨1, .headers, true⟩, {}),
    (.beginHeaders 3 true, {}), (.frame ⟨3, .headers, true⟩, { replies := [⟨[.respond 3 200 [] true],
      .ok, 0, false⟩] }), (.read 3 100, {})]
  have hlegal : World.Legal ⟨{ appLimit := 4 }, {}⟩ t := by decide +kernel
  have hw := (Reach.create hcreate).run hlegal
  exact ⟨_, hw, by decide +kernel, by decide +kernel, (slot_table hw).1⟩

end EspCfTunnel.H2
