import EspCfTunnel.Lib.History
import EspCfTunnel.H2.Slots

/-!
# The history of a session

What the application has been told is in the history of callbacks. This file says when a callback is
allowed by what happened before it, and what API calls can do to the slots and to the history
(`Effect`). They may come at any point, also while a callback runs, so everything said about a
callback goes through `callback_effect`.
-/

namespace EspCfTunnel.H2

open EspCfTunnel StateLogic

/-! ## What may be called when -/

/-- The stream that a note is about. -/
def Note.stream : Note → Option Int
  | .request r => some r.stream
  | .data id _ _ | .read id _ | .closed id _ | .reset id | .response id => some id
  | .returned n _ => n.stream
  | .call _ => none

/-- The application has accepted the request of the stream. -/
def Accepted (id : Int) (log : List Note) : Prop :=
  ∃ r, r.stream = id ∧ .returned (.request r) .ok ∈ log

/-- The application has been told that the stream is closed. -/
def Closed (id : Int) (log : List Note) : Prop := ∃ error, .closed id error ∈ log

/-- The callback may be made after what has happened. -/
def Allowed (before : List Note) : Note → Prop
  | .request r => (∀ r', .request r' ∈ before → r'.stream ≠ r.stream) ∧ .reset r.stream ∉ before ∧
      ¬ Closed r.stream before
  | .data id bytes fin => Accepted id before ∧ (∀ bytes', .data id bytes' true ∉ before) ∧
      .reset id ∉ before ∧ ¬ Closed id before ∧
      if fin then bytes = [] else 1 ≤ bytes.length ∧ bytes.length ≤ chunk
  | .read id _ => .response id ∈ before ∧ .reset id ∉ before ∧ ¬ Closed id before
  | .closed id _ => ¬ Closed id before
  | _ => True

/-- The body bytes of a stream that a note brings. -/
def Note.bytes (id : Int) : Note → Bytes
  | .data id' bytes false => if id' = id then bytes else []
  | _ => []

/-- The body of a stream that the application has been given. -/
def received (id : Int) (log : List Note) : Bytes := log.flatMap (Note.bytes id)

/-- The request that has been accepted. -/
def Note.accepted : Note → Option Request
  | .returned (.request r) .ok => some r
  | _ => none

/-- The stream of a request that the application has refused. -/
def Note.refused : Note → Option Int
  | .returned (.request r) rc => if rc = .ok then none else some r.stream
  | _ => none

/-- The application is told that the stream is closed. -/
def Note.closes (id : Int) : Note → Bool
  | .closed id' _ => id' = id
  | _ => false

/-- The HTTP requests that the application has accepted and whose streams are not closed. -/
def openRequests (log : List Note) : List Request :=
  (log.filterMap Note.accepted).filter fun r => r.kind = .http ∧ log.any (Note.closes r.stream) = false

/-- There is room for one more when the application is asked to take an HTTP request. -/
def Free (limit : Nat) (before : List Note) : Note → Prop
  | .request r => r.kind = .http → (openRequests before).length < limit
  | _ => True

/-- A note of an API call and of what it has done. -/
def Note.inert : Note → Bool
  | .call _ | .reset _ | .response _ => true
  | _ => false

section
variable {id : Int} {log l : List Note} {n : Note}

theorem Closed.append (h : Closed id log) (l : List Note) : Closed id (log ++ l) := by
  obtain ⟨error, hmem⟩ := h
  exact ⟨error, List.mem_append_left l hmem⟩

theorem any_closes : log.any (Note.closes id) = true ↔ Closed id log := by
  rw [List.any_eq_true]
  constructor
  · rintro ⟨n, hmem, hn⟩
    cases n with
    | closed id' error =>
      obtain rfl : id' = id := by simpa [Note.closes] using hn
      exact ⟨error, hmem⟩
    | _ => cases hn
  · rintro ⟨error, hmem⟩
    exact ⟨_, hmem, by simp [Note.closes]⟩

theorem mem_accepted {r : Request} :
    r ∈ log.filterMap Note.accepted ↔ .returned (.request r) .ok ∈ log := by
  rw [List.mem_filterMap]
  constructor
  · rintro ⟨n, hmem, hn⟩
    unfold Note.accepted at hn
    split at hn
    · rwa [← Option.some.inj hn]
    · cases hn
  · exact fun hmem => ⟨_, hmem, rfl⟩

theorem mem_refused : id ∈ log.filterMap Note.refused ↔
    ∃ r rc, .returned (.request r) rc ∈ log ∧ rc ≠ .ok ∧ r.stream = id := by
  rw [List.mem_filterMap]
  constructor
  · rintro ⟨n, hmem, hn⟩
    unfold Note.refused at hn
    split at hn
    · next r rc =>
      by_cases hrc : rc = .ok
      · rw [if_pos hrc] at hn
        cases hn
      · rw [if_neg hrc] at hn
        exact ⟨r, rc, hmem, hrc, Option.some.inj hn⟩
    · cases hn
  · rintro ⟨r, rc, hmem, hrc, rfl⟩
    exact ⟨_, hmem, by simp [Note.refused, hrc]⟩

theorem Accepted.append (h : Accepted id log) (l : List Note) : Accepted id (log ++ l) := by
  obtain ⟨r, hr, hmem⟩ := h
  exact ⟨r, hr, List.mem_append_left l hmem⟩

/-- A note that is not one of an API call is not among such notes. -/
theorem mem_append_inert (hl : ∀ n ∈ l, n.inert = true) (hn : n.inert = false) :
    n ∈ log ++ l ↔ n ∈ log := by
  constructor
  · intro hmem
    rcases List.mem_append.1 hmem with hmem | hmem
    · exact hmem
    · rw [hl n hmem] at hn
      cases hn
  · exact List.mem_append_left l

theorem mem_concat_of_ne {a : Note} (h : n ≠ a) : n ∈ log ++ [a] ↔ n ∈ log := by
  simp [h]

theorem closed_append_inert (hl : ∀ n ∈ l, n.inert = true) :
    Closed id (log ++ l) ↔ Closed id log := by
  exact exists_congr fun error => mem_append_inert hl rfl

theorem filterMap_append_inert {α : Type} {f : Note → Option α} (hf : ∀ n, n.inert = true → f n = none)
    (hl : ∀ n ∈ l, n.inert = true) : (log ++ l).filterMap f = log.filterMap f := by
  rw [List.filterMap_append, List.filterMap_eq_nil_iff.2 fun n hn => hf n (hl n hn), List.append_nil]

theorem accepted_of_inert (n : Note) (hn : n.inert = true) : n.accepted = none := by
  cases n with
  | call _ | reset _ | response _ => rfl
  | _ => cases hn

theorem refused_of_inert (n : Note) (hn : n.inert = true) : n.refused = none := by
  cases n with
  | call _ | reset _ | response _ => rfl
  | _ => cases hn

theorem received_append : received id (log ++ l) = received id log ++ received id l :=
  List.flatMap_append

theorem received_concat : received id (log ++ [n]) = received id log ++ n.bytes id := by
  rw [received_append]
  simp [received]

theorem received_append_inert (hl : ∀ n ∈ l, n.inert = true) :
    received id (log ++ l) = received id log := by
  have hnil : received id l = [] := by
    refine List.flatMap_eq_nil_iff.2 fun n hn => ?_
    have hin := hl n hn
    cases n with
    | call _ | reset _ | response _ => rfl
    | _ => cases hin
  rw [received_append, hnil, List.append_nil]

end

/-- Notes of API calls break no rule that says nothing of them. -/
theorem obeys_append_inert {log l : List Note} {ok : List Note → Note → Prop}
    (hok : ∀ before n, n.inert = true → ok before n) (hl : ∀ n ∈ l, n.inert = true)
    (hlog : History.Obeys ok log) : History.Obeys ok (log ++ l) := by
  induction l using List.reverseRecOn with
  | nil => rwa [List.append_nil]
  | append_singleton l n ih =>
    rw [← List.append_assoc]
    refine History.obeys_concat.2 ⟨ih fun n' hn' => hl n' (List.mem_append_left _ hn'), ?_⟩
    exact hok _ n (hl n (List.mem_append_right _ List.mem_cons_self))

theorem allowed_of_inert (before : List Note) (n : Note) (hn : n.inert = true) : Allowed before n := by
  cases n with
  | call _ | reset _ | response _ => exact trivial
  | _ => cases hn

theorem free_of_inert (limit : Nat) (before : List Note) (n : Note) (hn : n.inert = true) :
    Free limit before n := by
  cases n with
  | request r => cases hn
  | _ => exact trivial

/-! ## What API calls do -/

/-- A session that differs in nothing the history speaks of. -/
structure Quiet (h h' : Session) : Prop where
  stream : ∀ i, (h'.streams i).id = (h.streams i).id ∧ (h'.streams i).kind = (h.streams i).kind ∧
    (h'.streams i).headersDone = (h.streams i).headersDone ∧
    (h'.streams i).response = (h.streams i).response ∧ (h'.streams i).reset = (h.streams i).reset
  headerStream : h'.headerStream = h.headerStream
  error : h'.error = h.error
  appLimit : h'.appLimit = h.appLimit

/-- What API calls do to the history and the session; `m` is that they only respond and resume. -/
structure Effect (m : Prop) (log : List Note) (h : Session) (log' : List Note) (h' : Session) :
    Prop where
  stream : ∀ i, (h'.streams i).id = (h.streams i).id ∧ (h'.streams i).kind = (h.streams i).kind ∧
    (h'.streams i).headersDone = (h.streams i).headersDone
  headerStream : h'.headerStream = h.headerStream
  appLimit : h'.appLimit = h.appLimit
  kept : ∀ i, (h.streams i).reset = true → (h'.streams i).reset = true
  notes : ∃ l, log' = log ++ l ∧ ∀ n ∈ l, n.inert = true ∧
    ∀ id, n.stream = some id → ∃ i, (h.streams i).id = id ∧ id ≠ 0
  marked : ∀ i, .reset (h.streams i).id ∈ log' → .reset (h.streams i).id ∈ log ∨
    (h'.streams i).reset = true
  response : ∀ i, (h'.streams i).response = true → (h.streams i).response = true ∨
    .response (h.streams i).id ∈ log'
  error : h'.error = .ok → h.error = .ok
  modest : m → h'.error = h.error ∧ ∀ i, (h'.streams i).reset = (h.streams i).reset

/-- The ids in use are distinct. -/
def Session.Distinct (h : Session) : Prop :=
  ∀ i j, (h.streams i).id ≠ 0 → (h.streams i).id = (h.streams j).id → i = j

section
variable {m : Prop} {log log₁ log₂ : List Note} {h h₁ h₂ : Session}

theorem Quiet.refl (h : Session) : Quiet h h :=
  ⟨fun _ => ⟨rfl, rfl, rfl, rfl, rfl⟩, rfl, rfl, rfl⟩

/-- What a change of one stream keeps, it keeps everywhere. -/
theorem setStream_congr {α : Type} (h : Session) {i : Fin slots} {s : Stream} {f : Stream → α}
    (hs : f s = f (h.streams i)) (j : Fin slots) : f ((h.setStream i s).streams j) = f (h.streams j) := by
  by_cases hj : j = i
  · subst hj
    rwa [setStream_self]
  · rw [setStream_of_ne h hj]

/-- A change of one stream in what the history does not speak of. -/
theorem Quiet.setStream (h : Session) {i : Fin slots} {s : Stream}
    (hid : s.id = (h.streams i).id) (hkind : s.kind = (h.streams i).kind)
    (hdone : s.headersDone = (h.streams i).headersDone)
    (hresponse : s.response = (h.streams i).response) (hreset : s.reset = (h.streams i).reset) :
    Quiet h (h.setStream i s) where
  stream j := ⟨setStream_congr h hid j, setStream_congr h hkind j, setStream_congr h hdone j,
    setStream_congr h hresponse j, setStream_congr h hreset j⟩
  headerStream := rfl
  error := rfl
  appLimit := rfl

theorem Quiet.effect (hq : Quiet h h₁) : Effect m log h log h₁ where
  stream i := ⟨(hq.stream i).1, (hq.stream i).2.1, (hq.stream i).2.2.1⟩
  headerStream := hq.headerStream
  appLimit := hq.appLimit
  kept i hi := (hq.stream i).2.2.2.2.trans hi
  notes := ⟨[], by simp, nofun⟩
  marked _ hi := .inl hi
  response i hi := .inl ((hq.stream i).2.2.2.1.symm.trans hi)
  error he := hq.error.symm.trans he
  modest _ := ⟨hq.error, fun i => (hq.stream i).2.2.2.2⟩

theorem Effect.trans (h₁₂ : Effect m log h log₁ h₁) (h₂₃ : Effect m log₁ h₁ log₂ h₂) :
    Effect m log h log₂ h₂ := by
  have hid i : (h₁.streams i).id = (h.streams i).id := (h₁₂.stream i).1
  refine ⟨fun i => ?_, h₂₃.headerStream.trans h₁₂.headerStream, h₂₃.appLimit.trans h₁₂.appLimit,
    fun i hi => h₂₃.kept i (h₁₂.kept i hi), ?_, fun i hi => ?_, fun i hi => ?_,
    fun he => h₁₂.error (h₂₃.error he), fun hm => ?_⟩
  · obtain ⟨ha, hb, hc⟩ := h₁₂.stream i
    obtain ⟨ha', hb', hc'⟩ := h₂₃.stream i
    exact ⟨ha'.trans ha, hb'.trans hb, hc'.trans hc⟩
  · obtain ⟨l, rfl, hl⟩ := h₁₂.notes
    obtain ⟨l', rfl, hl'⟩ := h₂₃.notes
    refine ⟨l ++ l', by simp, fun n hn => ?_⟩
    rcases List.mem_append.1 hn with hn | hn
    · exact hl n hn
    · simpa only [hid] using hl' n hn
  · have hmark := h₂₃.marked i
    rw [hid] at hmark
    rcases hmark hi with hi | hi
    · exact (h₁₂.marked i hi).imp_right (h₂₃.kept i)
    · exact .inr hi
  · rcases h₂₃.response i hi with hi | hi
    · obtain ⟨l, rfl, -⟩ := h₂₃.notes
      exact (h₁₂.response i hi).imp_right (List.mem_append_left l)
    · rw [hid] at hi
      exact .inr hi
  · obtain ⟨he, hr⟩ := h₁₂.modest hm
    obtain ⟨he', hr'⟩ := h₂₃.modest hm
    exact ⟨he'.trans he, fun i => (hr' i).trans (hr i)⟩

/-- An API call is noted. -/
theorem Effect.call (c : Call) : Effect m log h (log ++ [.call c]) h where
  stream _ := ⟨rfl, rfl, rfl⟩
  headerStream := rfl
  appLimit := rfl
  kept _ hi := hi
  notes := ⟨[.call c], rfl, fun n hn => by
    obtain rfl := List.mem_singleton.1 hn
    exact ⟨rfl, nofun⟩⟩
  marked _ hi := .inl ((mem_concat_of_ne (by simp)).1 hi)
  response _ hi := .inl hi
  error he := he
  modest _ := ⟨rfl, fun _ => rfl⟩

/-- The note of an effect on the stream in a slot. -/
theorem notes_slot {i : Fin slots} (hid : (h.streams i).id ≠ 0) {n : Note} (hn : n.inert = true)
    (hstream : n.stream = some (h.streams i).id) : ∃ l, log ++ [n] = log ++ l ∧ ∀ n ∈ l,
      n.inert = true ∧ ∀ id, n.stream = some id → ∃ i, (h.streams i).id = id ∧ id ≠ 0 := by
  refine ⟨[n], rfl, fun n' hn' => ?_⟩
  obtain rfl := List.mem_singleton.1 hn'
  refine ⟨hn, fun id hid' => ?_⟩
  obtain rfl := Option.some.inj (hstream.symm.trans hid')
  exact ⟨i, rfl, hid⟩

/-- A response is accepted. -/
theorem Effect.respond {i : Fin slots} (hid : (h.streams i).id ≠ 0) :
    Effect m log h (log ++ [.response (h.streams i).id])
      (h.setStream i { h.streams i with response := true }) where
  stream j := ⟨setStream_congr (f := Stream.id) h (by rfl) j, setStream_congr (f := Stream.kind) h (by rfl) j,
    setStream_congr (f := Stream.headersDone) h (by rfl) j⟩
  headerStream := rfl
  appLimit := rfl
  kept j hj := (setStream_congr (f := Stream.reset) h (by rfl) j).trans hj
  notes := notes_slot hid rfl rfl
  marked j hj := .inl ((mem_concat_of_ne (by simp)).1 hj)
  response j hj := by
    by_cases hji : j = i
    · subst hji
      exact .inr (List.mem_append_right _ List.mem_cons_self)
    · rw [setStream_of_ne h hji] at hj
      exact .inl hj
  error he := he
  modest _ := ⟨rfl, setStream_congr (f := Stream.reset) h (by rfl)⟩

/-- A stream is reset. -/
theorem Effect.reset (hm : ¬ m) (hd : h.Distinct) {i : Fin slots} (hid : (h.streams i).id ≠ 0) :
    Effect m log h (log ++ [.reset (h.streams i).id])
      (h.setStream i { h.streams i with reset := true }) where
  stream j := ⟨setStream_congr (f := Stream.id) h (by rfl) j, setStream_congr (f := Stream.kind) h (by rfl) j,
    setStream_congr (f := Stream.headersDone) h (by rfl) j⟩
  headerStream := rfl
  appLimit := rfl
  kept j hj := by
    by_cases hji : j = i
    · subst hji
      rw [setStream_self]
    · rwa [setStream_of_ne h hji]
  notes := notes_slot hid rfl rfl
  marked j hj := by
    rcases List.mem_append.1 hj with hj | hj
    · exact .inl hj
    · have heq : (h.streams j).id = (h.streams i).id := by simpa using hj
      obtain rfl := hd i j hid heq.symm
      rw [setStream_self]
      exact .inr rfl
  response j hj := .inl ((setStream_congr (f := Stream.response) h (by rfl) j).symm.trans hj)
  error he := he
  modest hyes := absurd hyes hm

/-- A reset could not be submitted. -/
theorem Effect.fail (hm : ¬ m) : Effect m log h log { h with error := .memory } where
  stream _ := ⟨rfl, rfl, rfl⟩
  headerStream := rfl
  appLimit := rfl
  kept _ hi := hi
  notes := ⟨[], by simp, nofun⟩
  marked _ hi := .inl hi
  response _ hi := .inl hi
  error := nofun
  modest h := absurd h hm

theorem Effect.distinct (he : Effect m log h log₁ h₁) (hd : h.Distinct) : h₁.Distinct := by
  intro i j hi hij
  rw [(he.stream i).1] at hi hij
  rw [(he.stream j).1] at hij
  exact hd i j hi hij

end

/-! ## Running API calls -/

/-- The call only responds or resumes. -/
def Call.modest : Call → Bool
  | .respond _ _ _ _ | .resume _ => true
  | _ => false

/-- The callbacks respond and resume, and make no other API calls. -/
def Oracle.Modest (o : Oracle) : Prop :=
  ∀ reply ∈ o.replies, ∀ call ∈ reply.calls, call.modest = true

instance (o : Oracle) : Decidable o.Modest :=
  inferInstanceAs (Decidable (∀ reply ∈ o.replies, ∀ call ∈ reply.calls, call.modest = true))

/-- What the callbacks of an event will do: their API calls are valid, and modest if `m`. -/
def Oracle.Allows (o : Oracle) (m : Prop) : Prop :=
  ∀ reply ∈ o.replies, ∀ call ∈ reply.calls, call.Valid ∧ (m → call.modest = true)

/-- The effect of what has run since the history was `log` and the session `h`; `past` is the history
before the event. -/
structure Ran (m m' : Prop) (past log : List Note) (h : Session) (c : Ctx) : Prop where
  effect : Effect m log h (past ++ c.log) c.h
  allows : c.oracle.Allows m'

section
variable {m m' : Prop} {past log : List Note} {h : Session}

theorem note_call_ran (call : Call) :
    Triple (Ran m m' past log h) (note (.call call)) fun _ => Ran m m' past log h := by
  intro c hc
  refine ⟨hc.effect.trans ?_, hc.allows⟩
  change Effect m (past ++ c.log) c.h (past ++ (c.log ++ [.call call])) c.h
  rw [← List.append_assoc]
  exact .call call

theorem nghttp2_ran : Triple (Ran m m' past log h) nghttp2 fun _ => Ran m m' past log h :=
  fun _ hc => ⟨hc.effect, hc.allows⟩

theorem modifySession_ran {f : Session → Session} (hf : ∀ h, Quiet h (f h)) :
    Triple (Ran m m' past log h) (modifySession f) fun _ => Ran m m' past log h :=
  fun c hc => ⟨hc.effect.trans (hf c.h).effect, hc.allows⟩

/-- Afterwards the stream is reset, if it has a slot, or the session has failed. -/
theorem reset_ran (hm : ¬ m) (hd : h.Distinct) {id : Int} (hid : id ≠ 0) (error : Nat) :
    Triple (Ran m m' past log h) (reset id error) fun _ c => Ran m m' past log h c ∧
      ∀ i, (c.h.streams i).id = id → (c.h.streams i).reset = true ∨ c.h.error ≠ .ok := by
  refine Triple.bind (note_call_ran _) fun _ => Triple.get_bind fun c hc => ?_
  have hdc : c.h.Distinct := hc.effect.distinct hd
  have honly : ∀ i, c.h.findStream id = some i → ∀ j, (c.h.streams j).id = id → j = i := by
    intro i hi j hj
    exact hdc j i (by rw [hj]; exact hid) (hj.trans (findStream_eq_some hi).symm)
  refine Triple.ite (fun hany => Triple.ret ?_) fun _ => ?_
  · rintro c ⟨rfl, -⟩
    refine ⟨hc, fun j hj => .inl ?_⟩
    cases hs : c.h.findStream id with
    | none => exact absurd hj (findStream_eq_none hs j)
    | some i =>
      rw [hs] at hany
      obtain rfl := honly i hs j hj
      exact hany
  rintro c ⟨rfl, -⟩
  rw [run_bind]
  split
  · exact ⟨⟨hc.effect.trans (.fail hm), hc.allows⟩, fun _ _ => .inr nofun⟩
  cases hs : c.h.findStream id with
  | none => exact ⟨⟨hc.effect.trans (Quiet.effect ⟨fun _ => ⟨rfl, rfl, rfl, rfl, rfl⟩, rfl, rfl, rfl⟩),
      hc.allows⟩, fun j hj => absurd hj (findStream_eq_none hs j)⟩
  | some i =>
    have hsid := findStream_eq_some hs
    have hmark : Effect m (past ++ c.log) c.h (past ++ (c.log ++ [.reset (c.h.streams i).id]))
        (c.h.setStream i { c.h.streams i with reset := true }) := by
      rw [← List.append_assoc]
      exact .reset hm hdc (by rw [hsid]; exact hid)
    refine ⟨⟨(hc.effect.trans hmark).trans
      (Quiet.effect ⟨fun _ => ⟨rfl, rfl, rfl, rfl, rfl⟩, rfl, rfl, rfl⟩), hc.allows⟩, fun j hj => .inl ?_⟩
    have hj : ((c.h.setStream i { c.h.streams i with reset := true }).streams j).id = id := hj
    obtain rfl := honly i hs j ((setStream_congr (f := Stream.id) c.h (by rfl) j).symm.trans hj)
    change ((c.h.setStream j _).streams j).reset = true
    rw [setStream_self]

theorem respond_ran {id : Int} (hid : id ≠ 0) (status : Nat) (headers : List Header) (origin : Bool) :
    Triple (Ran m m' past log h) (respond id status headers origin) fun _ => Ran m m' past log h := by
  refine Triple.bind (note_call_ran _) fun _ => ?_
  refine Triple.ite (fun _ => Triple.ret fun _ h => h) fun _ => Triple.get_bind fun c hc => ?_
  dsimp only
  cases hs : c.h.findStream id with
  | none => exact Triple.ret fun _ h => h.2
  | some i =>
    have hsid := findStream_eq_some hs
    refine Triple.ite (fun _ => Triple.ret fun _ h => h.2) fun _ => ?_
    cases Headers.headersEncode headers Headers.wireMax with
    | error rc => exact Triple.ret fun _ h => h.2
    | ok wire =>
      refine Triple.ite (fun _ => Triple.ret fun _ h => h.2) fun _ => ?_
      rintro c ⟨rfl, -⟩
      rw [run_bind]
      split
      · exact ⟨hc.effect, hc.allows⟩
      · have hrespond : Effect m (past ++ c.log) c.h (past ++ (c.log ++ [.response id]))
            (c.h.setStream i { c.h.streams i with response := true }) := by
          rw [← List.append_assoc, ← hsid]
          exact .respond (by rw [hsid]; exact hid)
        exact ⟨hc.effect.trans hrespond, hc.allows⟩

theorem resume_ran (id : Int) :
    Triple (Ran m m' past log h) (resume id) fun _ => Ran m m' past log h := by
  refine Triple.bind (note_call_ran _) fun _ => Triple.get_bind fun c hc => ?_
  dsimp only
  cases hs : c.h.findStream id with
  | none => exact Triple.ret fun _ h => h.2
  | some i =>
    refine Triple.ite (fun _ => Triple.ret fun _ h => h.2) fun _ => ?_
    refine Triple.ite (fun _ => Triple.ret fun _ h => h.2) fun _ => ?_
    refine Triple.bind (nghttp2_ran.pre fun _ h => h.2) fun ok => ?_
    refine Triple.ite (fun _ => Triple.ret fun _ h => h) fun _ => ?_
    exact Triple.bind (modifySession_ran fun h => Quiet.setStream h rfl rfl rfl rfl rfl) fun _ =>
      Triple.ret fun _ h => h

theorem tickSlots_ran (hm : ¬ m) (hd : h.Distinct) (now : Nat) (l : List (Fin slots)) :
    Triple (Ran m m' past log h) (tickSlots now l) fun _ => Ran m m' past log h := by
  induction l with
  | nil => exact Triple.ret fun _ h => h
  | cons i l ih =>
    refine Triple.bind (Triple.get_bind fun c hc => Triple.ite (fun hidle => ?_) fun _ =>
      Triple.ret fun _ h => h.2) fun _ => ih
    have hid : (c.h.streams i).id ≠ 0 := by
      simp only [Stream.idle, decide_eq_true_eq] at hidle
      exact hidle.1
    exact Triple.bind ((reset_ran hm hd hid 8).weaken (fun _ h => h.2) fun _ _ h => h.1) fun _ =>
      Triple.ret fun _ h => h

/-- An API call has an effect that is allowed to it. -/
theorem Call.ran (hd : h.Distinct) {call : Call} (hv : call.Valid) (hmodest : m → call.modest = true) :
    Triple (Ran m m' past log h) call.run fun _ => Ran m m' past log h := by
  cases call with
  | reset id error =>
    have hm : ¬ m := fun hm => Bool.noConfusion (hmodest hm)
    exact Triple.bind ((reset_ran hm hd hv error).post fun _ _ h => h.1) fun _ => Triple.ret fun _ h => h
  | respond id status headers origin =>
    exact Triple.bind (respond_ran hv status headers origin) fun _ => Triple.ret fun _ h => h
  | resume id => exact Triple.bind (resume_ran id) fun _ => Triple.ret fun _ h => h
  | shutdown =>
    refine Triple.bind (Triple.bind (note_call_ran _) fun _ => ?_) fun _ => Triple.ret fun _ h => h
    refine Triple.bind (modifySession_ran fun h => ⟨fun _ => ⟨rfl, rfl, rfl, rfl, rfl⟩, rfl, rfl, rfl⟩)
      fun _ => Triple.bind nghttp2_ran fun _ => ?_
    exact Triple.ite (fun _ => Triple.ret fun _ h => h) fun _ => Triple.ret fun _ h => h
  | sent n =>
    refine Triple.bind (Triple.bind (note_call_ran _) fun _ => ?_) fun _ => Triple.ret fun _ h => h
    refine Triple.get_bind fun c hc => Triple.pre ?_ fun _ h => h.2
    refine Triple.ite (fun _ => Triple.ret fun _ h => h) fun _ => ?_
    exact Triple.bind (modifySession_ran fun h => ⟨fun _ => ⟨rfl, rfl, rfl, rfl, rfl⟩, rfl, rfl, rfl⟩)
      fun _ => Triple.ret fun _ h => h
  | tick now =>
    have hm : ¬ m := fun hm => Bool.noConfusion (hmodest hm)
    refine Triple.bind (note_call_ran _) fun _ => ?_
    exact Triple.bind (modifySession_ran fun h => ⟨fun _ => ⟨rfl, rfl, rfl, rfl, rfl⟩, rfl, rfl, rfl⟩)
      fun _ => tickSlots_ran hm hd now _

/-- A callback is noted, then come the effects of its API calls, and last its return is noted. -/
theorem callback_effect (hd : h.Distinct) (n : Note) :
    Triple (fun c => past ++ c.log = log ∧ c.h = h ∧ c.oracle.Allows m) (callback n) fun reply c =>
      ∃ log', past ++ c.log = log' ++ [.returned n reply.result] ∧ Effect m (log ++ [n]) h log' c.h ∧
        c.oracle.Allows m := by
  rintro c ⟨rfl, rfl, hallows⟩
  obtain ⟨c₁, hc₁⟩ : ∃ c₁ : Ctx, c₁ = { c with
    log := c.log ++ [n], oracle := { c.oracle with replies := c.oracle.replies.tail } } := ⟨_, rfl⟩
  have hran : Ran m m past (past ++ c.log ++ [n]) c.h c₁ := by
    subst hc₁
    refine ⟨?_, fun reply hr => hallows reply (List.mem_of_mem_tail hr)⟩
    change Effect m (past ++ c.log ++ [n]) c.h (past ++ (c.log ++ [n])) c.h
    rw [← List.append_assoc]
    exact (Quiet.refl c.h).effect
  have hcalls : ∀ call ∈ (c.oracle.replies.headD {}).calls, call.Valid ∧ (m → call.modest = true) := by
    cases hr : c.oracle.replies with
    | nil => exact nofun
    | cons reply rest => exact hallows reply (by rw [hr]; exact List.mem_cons_self)
  have hrun := runCalls_triple (fun call hcall => Call.ran hd (hcalls call hcall).1 (hcalls call hcall).2)
    c₁ hran
  obtain ⟨c₂, hc₂⟩ : ∃ c₂, runCalls (c.oracle.replies.headD {}).calls c₁ = ((), c₂) := ⟨_, rfl⟩
  rw [hc₂] at hrun
  have heq : callback n c = (c.oracle.replies.headD {},
      { c₂ with log := c₂.log ++ [.returned n (c.oracle.replies.headD {}).result] }) := by
    have hc₂' : runCalls (c.oracle.replies.headD {}).calls { c with
        log := c.log ++ [n], oracle := { c.oracle with replies := c.oracle.replies.tail } } =
        ((), c₂) := by rw [← hc₁, hc₂]
    simp only [callback, note, run_bind, run_modify, run_get, run_set, run_pure, hc₂']
  rw [heq]
  exact ⟨past ++ c₂.log, by simp, hrun.effect, hrun.allows⟩

end

end EspCfTunnel.H2
