import EspCfTunnel.Monitor.Backend
import EspCfTunnel.Monitor.Session

/-!
# What a remote request does

A request of the tunnel is executed at most once, when its stream has ended and with the body that came,
and the bytes that are handed out are the answer that was decided on, in order. Each callback is looked at
once (`Reacts`, `Opens`); the invariant follows one stream (`Story`), and the callbacks of all others leave
it alone.
-/

namespace EspCfTunnel.Backend

open EspCfTunnel StateLogic History

/-! ## What one callback does -/

/-- What an answer leaves in the log. -/
def answerEntries (a : Answers) (id : Int) (status : Nat) (content type : Bytes) : List Entry :=
  .answer id status content ::
    .note (.call (.respond id status (responseHeaders content.length type) true)) ::
    if a.responded = .ok then [.note (.response id)] else []

section
variable {l : Api.Library} {assets : List Asset} {a : Answers} {i : Fin records} {s : State}

theorem respond_eq (status : Nat) (type : Bytes) : respond a i status type s = (a.responded, { s with
    responses := Function.update s.responses i { s.responses i with complete := true }
    log := s.log ++ answerEntries a (s.responses i).id status (s.responses i).content type }) := by
  unfold respond setResponse say answerEntries
  rw [run_bind_eq (run_get s), run_bind_eq (run_modify _ _), run_bind_eq (run_modify _ _),
    run_bind_eq (run_modify _ _), run_ite]
  split
  · rw [run_bind_eq (run_modify _ _)]
    simp
  · simp

theorem failResponse_eq (status : Nat) (json : String) : failResponse a i status json s =
    (a.responded, { s with
      responses := Function.update s.responses i
        { s.responses i with content := text json, complete := true }
      log := s.log ++ answerEntries a (s.responses i).id status (text json) (text "application/json") }) := by
  unfold failResponse setResponse
  rw [run_bind_eq (run_get s), run_bind_eq (run_modify _ _), respond_eq]
  simp

/-- What `data` makes of the record of its stream, of the device and of the log. -/
inductive Reacts (l : Api.Library) (a : Answers) (d : Api.State) (x : Response) (bytes : Bytes) (fin : Bool) :
    Response → Api.State → List Entry → Prop
  | discard (complete : x.complete = true) : Reacts l a d x bytes fin x d []
  | wait (empty : bytes = []) (more : fin = false) : Reacts l a d x bytes fin x d []
  | collect {used : Bytes} (open_ : x.complete = false) (input : x.input = some used)
    (fits : used.length + bytes.length ≤ Remote.bodyMax) (more : fin = false) :
    Reacts l a d x bytes fin { x with input := some (used ++ bytes) } d []
  | refuse {input : Option Bytes} {status : Nat} {json : String} (open_ : x.complete = false) :
    Reacts l a d x bytes fin { x with input, content := text json, complete := true } d
      (answerEntries a x.id status (text json) (text "application/json"))
  | execute {used : Bytes} (open_ : x.complete = false) (ended : fin = true)
    (body : x.input.getD [] ++ bytes = used) (fits : bytes ≠ [] → used.length ≤ Remote.bodyMax)
    (whole : x.request.hasLength = true → x.request.contentLength = used.length) :
    Reacts l a d x bytes fin
      { x with
        input := none, request := { x.request with authorization := [] }
        content := (Api.serve l a.api (apiRequest x.request used) d).1.body, complete := true }
      (Api.serve l a.api (apiRequest x.request used) d).2
      (.execute x.id (apiRequest x.request used) (Api.serve l a.api (apiRequest x.request used) d).1 ::
        answerEntries a x.id (Api.serve l a.api (apiRequest x.request used) d).1.status
          (Api.serve l a.api (apiRequest x.request used) d).1.body (text "application/json"))

/-- The end of a stream whose body is `used`. -/
theorem execute_reacts {x : Response} {used bytes : Bytes} (hx : x.complete = false)
    (hi : s.responses i = { x with input := (if bytes ≠ [] then some used else x.input) })
    (hbody : x.input.getD [] ++ bytes = used) (hfits : bytes ≠ [] → used.length ≤ Remote.bodyMax) :
    ∃ y d new, (execute l a i s).2 = ⟨Function.update s.responses i y, d, s.log ++ new⟩ ∧
      Reacts l a s.device x bytes true y d new := by
  have hused : (s.responses i).input.getD [] = used := by
    rw [hi]
    dsimp only
    split
    · rfl
    · next hempty =>
      rw [not_not] at hempty
      rw [← hbody, hempty, List.append_nil]
  have hrequest : (s.responses i).request = x.request := by rw [hi]
  unfold execute
  rw [run_bind_eq (run_get s)]
  dsimp only
  rw [hused, hrequest]
  simp only [run_ite]
  have hrefuse (status : Nat) (json : String) :
      ∃ y d new, (failResponse a i status json s).2 = ⟨Function.update s.responses i y, d, s.log ++ new⟩ ∧
        Reacts l a s.device x bytes true y d new := by
    rw [failResponse_eq, hi]
    exact ⟨_, _, _, rfl, .refuse hx⟩
  split
  · exact hrefuse _ _
  next hwhole =>
  split
  · exact hrefuse _ _
  split
  · exact hrefuse _ _
  have hlength (h : x.request.hasLength = true) : x.request.contentLength = used.length := by
    by_contra hne
    exact hwhole ⟨h, hne⟩
  have hreacts := Reacts.execute (l := l) (a := a) (d := s.device) hx rfl hbody hfits hlength
  obtain ⟨reply, device, hserve⟩ : ∃ reply device,
    Api.serve l a.api (apiRequest x.request used) s.device = (reply, device) := ⟨_, _, rfl⟩
  rw [hserve] at hreacts
  rw [run_bind_eq (run_get s), hserve]
  dsimp only at hreacts ⊢
  unfold say setResponse
  rw [run_bind_eq (run_set _ _), run_bind_eq (run_modify _ _), run_bind_eq (run_modify _ _), respond_eq]
  refine ⟨_, _, _, ?_, hreacts⟩
  simp [hi]

/-- What `data` does. -/
theorem data_reacts (l : Api.Library) (a : Answers) {id : Int} (bytes : Bytes) (fin : Bool)
    (hfind : find id s = some i) :
    ∃ y d new, (data l a id bytes fin s).2 = ⟨Function.update s.responses i y, d, s.log ++ new⟩ ∧
      Reacts l a s.device (s.responses i) bytes fin y d new := by
  have hsame {fin : Bool} (h : Reacts l a s.device (s.responses i) bytes fin (s.responses i) s.device []) :
      ∃ y d new, s = ⟨Function.update s.responses i y, d, s.log ++ new⟩ ∧
        Reacts l a s.device (s.responses i) bytes fin y d new :=
    ⟨_, _, [], by simp, h⟩
  unfold data
  rw [run_bind_eq (run_get s), hfind]
  dsimp only
  rw [run_ite]
  split
  · next hcomplete => exact hsame (.discard hcomplete)
  next hopen =>
  have hx : (s.responses i).complete = false := by simpa using hopen
  rw [run_ite]
  split
  · next hbytes =>
    have hrefuse (status : Nat) (json : String) : ∃ y d new, (failResponse a i status json s).2 =
        ⟨Function.update s.responses i y, d, s.log ++ new⟩ ∧
          Reacts l a s.device (s.responses i) bytes fin y d new := by
      rw [failResponse_eq]
      exact ⟨_, _, _, rfl, .refuse hx⟩
    cases hinput : (s.responses i).input with
    | none => exact hrefuse _ _
    | some used =>
      dsimp only
      rw [run_ite]
      split
      · exact hrefuse _ _
      next hroom =>
      have hpos : 0 < bytes.length := List.length_pos_iff.2 hbytes
      have hfits : used.length + bytes.length ≤ Remote.bodyMax := by omega
      unfold setResponse
      rw [run_bind_eq (run_modify _ _), run_ite]
      cases fin with
      | true =>
        rw [if_pos rfl]
        obtain ⟨filled, hfilled⟩ : ∃ y, y = { s.responses i with input := some (used ++ bytes) } := ⟨_, rfl⟩
        rw [← hfilled]
        generalize hs' : (⟨Function.update s.responses i filled, s.device, s.log⟩ : State) = s'
        have hi : s'.responses i = { s.responses i with
            input := if bytes ≠ [] then some (used ++ bytes) else (s.responses i).input } := by
          rw [← hs', if_pos hbytes, ← hfilled]
          exact Function.update_self _ _ _
        obtain ⟨y, d, new, heq, hreacts⟩ := execute_reacts (l := l) (a := a) hx hi (by rw [hinput]; rfl)
          fun _ => by rw [List.length_append]; exact hfits
        rw [heq, ← hs']
        rw [← hs'] at hreacts
        exact ⟨y, d, new, by simp, hreacts⟩
      | false =>
        rw [if_neg Bool.false_ne_true]
        exact ⟨_, _, [], by simp, .collect hx hinput hfits rfl⟩
  next hbytes =>
  rw [not_not] at hbytes
  rw [run_ite]
  cases fin with
  | true =>
    rw [if_pos rfl]
    refine execute_reacts hx ?_ rfl fun hne => absurd hbytes hne
    rw [if_neg (not_not.2 hbytes)]
  | false => exact hsame (.wait hbytes rfl)

/-- What `request` puts into its record and into the log. -/
inductive Opens (a : Answers) (r : H2.Request) : Response → List Entry → Prop
  | refuse (head : Remote.RemoteHead) (status : Nat) (json : String) :
    Opens a r { id := r.stream, request := head, content := text json, complete := true }
      (answerEntries a r.stream status (text json) (text "application/json"))
  | wait {head : Remote.RemoteHead} (input : Option Bytes)
    (parse : Remote.remoteParse a.buffer r.headers = (.ok, head))
    (path : head.path.take 5 = text "/api/") (empty : input.getD [] = []) :
    Opens a r { id := r.stream, request := head, head := head.head, api := true, input }
      [.parsed r.stream head]
  | answer {head : Remote.RemoteHead} (api : Bool) (status : Nat) (content type : Bytes)
    (parse : Remote.remoteParse a.buffer r.headers = (.ok, head)) :
    Opens a r { id := r.stream, request := head, head := head.head, api, content, complete := true }
      (.parsed r.stream head :: answerEntries a r.stream status content type)

/-- What `route` makes of a head that was read. -/
theorem route_opens (assets : List Asset) {r : H2.Request} {head : Remote.RemoteHead}
    (hparse : Remote.remoteParse a.buffer r.headers = (.ok, head)) {log : List Entry}
    (hlog : s.log = log ++ [.parsed r.stream head])
    (hi : s.responses i = { id := r.stream, request := head }) :
    ∃ x new, (route assets a i s).2 = ⟨Function.update s.responses i x, s.device, log ++ new⟩ ∧
      Opens a r x new := by
  unfold route
  rw [run_bind_eq (run_get s)]
  dsimp only
  rw [hi]
  dsimp only
  obtain ⟨api, hapi⟩ : ∃ api, api = decide (head.path.take 5 = text "/api/") := ⟨_, rfl⟩
  rw [← hapi]
  obtain ⟨x, hx⟩ : ∃ x : Response, x = { id := r.stream, request := head, head := head.head, api } := ⟨_, rfl⟩
  rw [← hx]
  have hanswer (status : Nat) (content type : Bytes) : ∃ y new, (respond a i status type
      ⟨Function.update s.responses i { x with content }, s.device, s.log⟩).2 =
        ⟨Function.update s.responses i y, s.device, log ++ new⟩ ∧ Opens a r y new := by
    refine ⟨_, _, ?_, .answer api status content type hparse⟩
    rw [respond_eq]
    simp [hlog, hx]
  have hfail (status : Nat) (json : String) : ∃ y new, (failResponse a i status json
      ⟨Function.update s.responses i x, s.device, s.log⟩).2 =
        ⟨Function.update s.responses i y, s.device, log ++ new⟩ ∧ Opens a r y new := by
    unfold failResponse setResponse
    rw [run_bind_eq (run_get _), run_bind_eq (run_modify _ _)]
    simpa using hanswer status (text json) (text "application/json")
  unfold setResponse
  rw [run_bind_eq (run_modify _ _)]
  simp only [run_ite]
  split
  · next hpath =>
    have hapi' : api = true := by rw [hapi, decide_eq_true hpath]
    split
    · split
      · exact hfail _ _
      · rw [run_bind_eq (run_get _), run_bind_eq (run_modify _ _)]
        refine ⟨_, _, ?_, .wait (some []) hparse hpath rfl⟩
        simp [hlog, hx, hapi']
    · refine ⟨_, _, ?_, .wait none hparse hpath rfl⟩
      simp [hlog, hx, hapi']
  · split
    · exact hfail _ _
    · cases hasset : assets.find? (·.uri = head.path) with
      | none => exact hfail _ _
      | some asset =>
        dsimp only
        rw [run_bind_eq (run_get _), run_bind_eq (run_modify _ _)]
        simpa using hanswer 200 asset.data asset.type

/-- What `request` does when there is a record that is free. -/
theorem request_opens (assets : List Asset) (a : Answers) (r : H2.Request) (hfind : find 0 s = some i) :
    ∃ x new, (request assets a r s).2 = ⟨Function.update s.responses i x, s.device, s.log ++ new⟩ ∧
      Opens a r x new := by
  unfold request
  rw [run_bind_eq (run_get s), hfind]
  dsimp only
  obtain ⟨rc, head, hparse⟩ : ∃ rc head, Remote.remoteParse a.buffer r.headers = (rc, head) := ⟨_, _, rfl⟩
  rw [hparse]
  dsimp only
  unfold setResponse
  rw [run_bind_eq (run_modify _ _), run_ite]
  split
  · rw [failResponse_eq]
    refine ⟨_, _, ?_, .refuse head (if rc = .unsupported then 405 else 400)
      (errorText "Unsupported method, body size or ambiguous request headers.")⟩
    simp
  next hok =>
  rw [not_not] at hok
  rw [hok] at hparse
  unfold say
  rw [run_bind_eq (run_modify _ _)]
  obtain ⟨opened, hopened⟩ : ∃ y : Response, y = { id := r.stream, request := head } := ⟨_, rfl⟩
  rw [← hopened]
  have hi : (Function.update s.responses i opened) i = { id := r.stream, request := head } := by
    rw [Function.update_self, hopened]
  obtain ⟨x, new, heq, hopens⟩ := route_opens assets hparse
    (s := ⟨Function.update s.responses i opened, s.device, s.log ++ [.parsed r.stream head]⟩) rfl hi
  refine ⟨x, new, ?_, hopens⟩
  rw [heq]
  simp

end

/-! ## What may happen when -/

/-- The bytes of the answer that an entry hands out. -/
def Entry.handed (id : Int) : Entry → Bytes
  | .given id' bytes _ => if id' = id then bytes else []
  | _ => []

/-- The bytes of the answer that have been handed out. -/
def given (id : Int) (log : List Entry) : Bytes := log.flatMap (Entry.handed id)

/-- The session has asked for the stream. -/
def Requested (id : Int) (log : List Entry) : Prop :=
  ∃ r : H2.Request, r.stream = id ∧ .note (.request r) ∈ log

/-- The stream asks for the head of the answer only. -/
def HeadRequest (id : Int) (log : List Entry) : Prop := ∃ head, .parsed id head ∈ log ∧ head.head = true

/-- What may happen after what has happened. -/
def Rule (before : List Entry) : Entry → Prop
  | .parsed id head => (∀ head', .parsed id head' ∉ before) ∧
      ∃ r buffer, r.stream = id ∧ .note (.request r) ∈ before ∧
        Remote.remoteParse buffer r.headers = (.ok, head)
  | .execute id q _ => (∀ q' reply, .execute id q' reply ∉ before) ∧
      (∀ status content, .answer id status content ∉ before) ∧ .note (.data id [] true) ∈ before ∧
      ∃ head, .parsed id head ∈ before ∧ head.path.take 5 = text "/api/" ∧
        q = apiRequest head (H2.received id (notes before)) ∧ q.body.length ≤ Remote.bodyMax ∧
        (head.hasLength = true → head.contentLength = q.body.length)
  | .answer id status content => (∀ status' content', .answer id status' content' ∉ before) ∧
      ∀ q reply, .execute id q reply ∈ before → status = reply.status ∧ content = reply.body
  | .note (.call (.respond id status headers _)) => ∃ content type, .answer id status content ∈ before ∧
      headers = responseHeaders content.length type
  | .given id bytes eof => ∃ status content, .answer id status content ∈ before ∧
      (HeadRequest id before → bytes = [] ∧ eof = true) ∧
      (¬ HeadRequest id before → given id before ++ bytes <+: content ∧
        (eof = true ↔ given id before ++ bytes = content))
  | _ => True

/-! ## What a record says -/

/-- The stream that an entry is about, unless it is a note that says nothing of an answer. -/
def Entry.owner : Entry → Option Int
  | .parsed id _ | .execute id _ _ | .answer id _ _ | .given id _ _ => some id
  | .note (.data id _ _) | .note (.response id) => some id
  | .note _ => none

/-- The entry decides on the answer of the stream, or comes after that. -/
def Entry.decides (id : Int) : Entry → Bool
  | .execute id' _ _ | .answer id' _ _ | .given id' _ _ => id' = id
  | .note (.response id') => id' = id
  | _ => false

/-- The entry does not say that a stream is asked for, accepted or closed. -/
def Entry.plain : Entry → Bool
  | .note (.request _) | .note (.returned (.request _) _) | .note (.closed _ _) => false
  | _ => true

/-- The answer of the stream is open. -/
def Undecided (id : Int) (log : List Entry) : Prop := ∀ e ∈ log, e.decides id = false

/-- The record of a stream whose body is still coming. -/
structure Waiting (log : List Entry) (x : Response) : Prop where
  undecided : Undecided x.id log
  parsed : .parsed x.id x.request ∈ log
  path : x.request.path.take 5 = text "/api/"
  body : x.input.getD [] = H2.received x.id (notes log)
  fits : (H2.received x.id (notes log)).length ≤ Remote.bodyMax
  sent : x.sent = 0

/-- The record of a stream whose answer is decided on. -/
structure Complete (log : List Entry) (x : Response) : Prop where
  answer : ∃ status, .answer x.id status x.content ∈ log
  sent : x.sent ≤ x.content.length
  given : given x.id log = x.content.take x.sent
  head : x.head = true → x.sent = 0

/-- The record of a stream agrees with the log. -/
structure Slot (log : List Entry) (x : Response) : Prop where
  requested : Requested x.id log
  opened : ¬ H2.Closed x.id (notes log)
  head : x.head = true ↔ HeadRequest x.id log
  waiting : x.complete = false → Waiting log x
  complete : x.complete = true → Complete log x

/-- All records agree with the log, and the log keeps the rule. -/
structure Inv (log : List Entry) (t : Fin records → Response) : Prop where
  rule : Obeys Rule log
  slots : ∀ i, (t i).id ≠ 0 → Slot log (t i)
  distinct : ∀ i j, (t i).id ≠ 0 → (t i).id = (t j).id → i = j
  asked : ∀ e ∈ log, ∀ id, e.owner = some id → Requested id log
  accepted : ∀ id, H2.Accepted id (notes log) → Requested id log
  nonzero : ∀ id, Requested id log → id ≠ 0

section
variable {l : Api.Library} {assets : List Asset} {a : Answers} {log new : List Entry} {id : Int} {x y : Response}
  {t t' : Fin records → Response}

theorem notes_append : notes (log ++ new) = notes log ++ notes new := List.filterMap_append

theorem given_append : given id (log ++ new) = given id log ++ given id new := List.flatMap_append

theorem Requested.append (h : Requested id log) (new : List Entry) : Requested id (log ++ new) := by
  obtain ⟨r, hr, hmem⟩ := h
  exact ⟨r, hr, List.mem_append_left new hmem⟩

theorem Undecided.append (h : Undecided id log) (hnew : Undecided id new) : Undecided id (log ++ new) :=
  List.forall_mem_append.2 ⟨h, hnew⟩

/-- What an open answer has not. -/
theorem Undecided.none {e : Entry} (h : Undecided id log) (he : e.decides id = true) : e ∉ log := by
  intro hmem
  rw [h e hmem] at he
  cases he

theorem Undecided.given (h : Undecided id log) : given id log = [] := by
  refine List.flatMap_eq_nil_iff.2 fun e he => ?_
  cases e with
  | given id' bytes eof =>
    refine if_neg fun heq => ?_
    have hno : decide (id' = id) = false := h _ he
    rw [heq, decide_eq_true rfl] at hno
    cases hno
  | _ => rfl

/-- An entry about no other stream decides nothing about this one. -/
theorem Entry.decides_of_owner {e : Entry} (h : e.owner ≠ some id) : e.decides id = false := by
  cases e with
  | parsed id' head => rfl
  | execute id' q reply => exact decide_eq_false fun heq => h (congrArg some heq)
  | answer id' status content => exact decide_eq_false fun heq => h (congrArg some heq)
  | given id' bytes eof => exact decide_eq_false fun heq => h (congrArg some heq)
  | note n =>
    cases n with
    | response id' => exact decide_eq_false fun heq => h (congrArg some heq)
    | _ => rfl

theorem undecided_of_owner (h : ∀ e ∈ new, e.owner ≠ some id) : Undecided id new :=
  fun e he => Entry.decides_of_owner (h e he)

/-- Entries about other streams bring no bytes. -/
theorem received_of_owner (h : ∀ e ∈ new, e.owner ≠ some id) : H2.received id (notes new) = [] := by
  refine List.flatMap_eq_nil_iff.2 fun n hn => ?_
  obtain ⟨e, he, hnote⟩ := List.mem_filterMap.1 hn
  cases e with
  | note n' =>
    obtain rfl : n' = n := Option.some.inj hnote
    cases n' with
    | data id' bytes fin =>
      have hne : id' ≠ id := fun heq => h _ he (congrArg some heq)
      cases fin with
      | true => rfl
      | false => exact if_neg hne
    | _ => rfl
  | _ => cases hnote

/-- Nothing changes unless the head of the stream is read. -/
theorem headRequest_append (h : ∀ head, .parsed id head ∉ new) :
    HeadRequest id (log ++ new) ↔ HeadRequest id log := by
  constructor
  · rintro ⟨head, hmem, hhead⟩
    exact ⟨head, (List.mem_append.1 hmem).resolve_right (h head), hhead⟩
  · rintro ⟨head, hmem, hhead⟩
    exact ⟨head, List.mem_append_left new hmem, hhead⟩

/-- What is said of a record stays true when other streams go on. -/
theorem Slot.frame (h : Slot log x) (hnew : ∀ e ∈ new, e.owner ≠ some x.id)
    (hopen : ¬ H2.Closed x.id (notes (log ++ new))) : Slot (log ++ new) x := by
  have hreceived : H2.received x.id (notes (log ++ new)) = H2.received x.id (notes log) := by
    rw [notes_append, H2.received_append, received_of_owner hnew, List.append_nil]
  constructor
  · exact h.requested.append new
  · exact hopen
  · rw [headRequest_append fun head hmem => hnew _ hmem rfl]
    exact h.head
  · intro hx
    have hw := h.waiting hx
    constructor
    · exact hw.undecided.append (undecided_of_owner hnew)
    · exact List.mem_append_left new hw.parsed
    · exact hw.path
    · rw [hreceived]
      exact hw.body
    · rw [hreceived]
      exact hw.fits
    · exact hw.sent
  · intro hx
    have hc := h.complete hx
    constructor
    · obtain ⟨status, hmem⟩ := hc.answer
      exact ⟨status, List.mem_append_left new hmem⟩
    · exact hc.sent
    · rw [given_append, (undecided_of_owner hnew).given, List.append_nil]
      exact hc.given
    · exact hc.head

theorem mem_notes {n : H2.Note} : n ∈ notes log ↔ .note n ∈ log := by
  rw [notes, List.mem_filterMap]
  constructor
  · rintro ⟨e, he, hn⟩
    cases e with
    | note n' => exact Option.some.inj hn ▸ he
    | _ => cases hn
  · exact fun h => ⟨_, h, rfl⟩

/-- A longer log, with the record of one stream written. -/
theorem Inv.write (h : Inv log t) {i : Fin records} (hrule : Obeys Rule (log ++ new))
    (howner : ∀ e ∈ new, ∀ id', e.owner = some id' → id' = id ∧ Requested id (log ++ new))
    (hrequest : ∀ r : H2.Request, .note (.request r) ∈ new → r.stream ≠ 0)
    (hreturned : ∀ r, .note (.returned (.request r) .ok) ∈ new → Requested r.stream (log ++ new))
    (hclosed : ∀ id', id' ≠ id → H2.Closed id' (notes (log ++ new)) → H2.Closed id' (notes log))
    (hothers : ∀ j, j ≠ i → (t j).id ≠ 0 → (t j).id ≠ id ∧ (t j).id ≠ y.id)
    (hy : y.id ≠ 0 → Slot (log ++ new) y) : Inv (log ++ new) (Function.update t i y) := by
  constructor
  · exact hrule
  · intro j hj
    rcases eq_or_ne j i with rfl | hji
    · rw [Function.update_self] at hj ⊢
      exact hy hj
    · rw [Function.update_of_ne hji] at hj ⊢
      have hne := (hothers j hji hj).1
      have hslot := h.slots j hj
      exact hslot.frame (fun e he hown => hne (howner e he _ hown).1)
        fun hc => hslot.opened (hclosed _ hne hc)
  · intro j k hj hjk
    rcases eq_or_ne j i with rfl | hji
    · rcases eq_or_ne k j with rfl | hkj
      · rfl
      · rw [Function.update_self] at hj hjk
        rw [Function.update_of_ne hkj] at hjk
        exact absurd hjk.symm (hothers k hkj (hjk ▸ hj)).2
    · rw [Function.update_of_ne hji] at hj hjk
      rcases eq_or_ne k i with rfl | hki
      · rw [Function.update_self] at hjk
        exact absurd hjk (hothers j hji hj).2
      · rw [Function.update_of_ne hki] at hjk
        exact h.distinct j k hj hjk
  · intro e he id' hid
    rcases List.mem_append.1 he with he | he
    · exact (h.asked e he id' hid).append new
    · obtain ⟨rfl, hrequested⟩ := howner e he id' hid
      exact hrequested
  · rintro id' ⟨r, rfl, hmem⟩
    rcases List.mem_append.1 (mem_notes.1 hmem) with hmem | hmem
    · exact (h.accepted r.stream ⟨r, rfl, mem_notes.2 hmem⟩).append new
    · exact hreturned r hmem
  · rintro id' ⟨r, rfl, hmem⟩
    rcases List.mem_append.1 hmem with hmem | hmem
    · exact h.nonzero r.stream ⟨r, rfl, hmem⟩
    · exact hrequest r hmem

/-- The record of one stream is written, and no other stream is spoken of. -/
theorem Inv.answer (h : Inv log t) {i : Fin records} (hrule : Obeys Rule (log ++ new))
    (hplain : ∀ e ∈ new, e.plain = true) (howner : ∀ e ∈ new, ∀ id', e.owner = some id' → id' = id)
    (hid : Requested id log) (hothers : ∀ j, j ≠ i → (t j).id ≠ 0 → (t j).id ≠ id) (hstream : y.id = id)
    (hy : Slot (log ++ new) y) : Inv (log ++ new) (Function.update t i y) := by
  refine h.write hrule (fun e he id' hown => ⟨howner e he id' hown, hid.append new⟩) ?_ ?_ ?_ ?_ fun _ => hy
  · intro r hr
    cases hplain _ hr
  · intro r hr
    cases hplain _ hr
  · rintro id' - ⟨error, hmem⟩
    rcases List.mem_append.1 (mem_notes.1 hmem) with hmem | hmem
    · exact ⟨error, mem_notes.2 hmem⟩
    · cases hplain _ hmem
  · intro j hj h0
    rw [hstream]
    exact ⟨hothers j hj h0, hothers j hj h0⟩

theorem plain_of_inert (h : ∀ n ∈ notes new, n.inert = true) : ∀ e ∈ new, e.plain = true := by
  intro e he
  cases e with
  | note n =>
    have hn := h n (mem_notes.2 he)
    cases n with
    | call _ | reset _ | response _ => rfl
    | _ => cases hn
  | _ => rfl

/-- A longer log that says nothing of a stream with a record. -/
theorem Inv.pass (h : Inv log t) (id : Int) (hrule : Obeys Rule (log ++ new))
    (howner : ∀ e ∈ new, ∀ id', e.owner = some id' → id' = id ∧ Requested id (log ++ new))
    (hrequest : ∀ r : H2.Request, .note (.request r) ∈ new → r.stream ≠ 0)
    (hreturned : ∀ r, .note (.returned (.request r) .ok) ∈ new → Requested r.stream (log ++ new))
    (hclosed : ∀ id', id' ≠ id → H2.Closed id' (notes (log ++ new)) → H2.Closed id' (notes log))
    (hothers : ∀ j, (t j).id ≠ 0 → (t j).id ≠ id) : Inv (log ++ new) t := by
  have hsame : Function.update t 0 (t 0) = t := Function.update_eq_self 0 t
  rw [← hsame]
  refine h.write hrule howner hrequest hreturned hclosed (fun j hj h0 => ⟨hothers j h0, ?_⟩) fun h0 => ?_
  · exact fun heq => hj (h.distinct j 0 h0 heq)
  · have hslot := h.slots 0 h0
    exact hslot.frame (fun e he hown => hothers 0 h0 (howner e he _ hown).1)
      fun hc => hslot.opened (hclosed _ (hothers 0 h0) hc)

/-- A note of the session that says nothing of an answer. -/
theorem Inv.note (h : Inv log t) {n : H2.Note} (howner : (Entry.note n).owner = none)
    (hrule : Rule log (.note n)) (hclosed : ∀ id error, n ≠ .closed id error)
    (hrequest : ∀ r, n = .request r → r.stream ≠ 0)
    (hreturned : ∀ r, n = .returned (.request r) .ok → Requested r.stream log) :
    Inv (log ++ [.note n]) t := by
  -- No stream has the id 0.
  refine h.pass 0 (History.obeys_concat.2 ⟨h.rule, hrule⟩) ?_ ?_ ?_ ?_ fun _ h0 => h0
  · rintro e he id' hid
    rw [List.mem_singleton.1 he, howner] at hid
    cases hid
  · intro r hr
    exact hrequest r (Entry.note.inj (List.mem_singleton.1 hr)).symm
  · intro r hr
    exact (hreturned r (Entry.note.inj (List.mem_singleton.1 hr)).symm).append _
  · rintro id' - ⟨error, hmem⟩
    rw [mem_notes, List.mem_append, List.mem_singleton] at hmem
    rcases hmem with hmem | hmem
    · exact ⟨error, mem_notes.2 hmem⟩
    · exact absurd (Entry.note.inj hmem).symm (hclosed id' error)

theorem Inv.returned (h : Inv log t) {n : H2.Note} {rc : Result} (hn : ∀ r, n ≠ .request r) :
    Inv (log ++ [.note (.returned n rc)]) t :=
  h.note rfl trivial nofun nofun fun r heq => absurd (H2.Note.returned.inj heq).1 (hn r)

end

/-! ## Answers -/

section
variable {l : Api.Library} {assets : List Asset} {a : Answers} {log new : List Entry} {id : Int} {x y : Response}
  {status : Nat} {content type : Bytes}

theorem answer_owner {e : Entry} (he : e ∈ answerEntries a id status content type) {id' : Int}
    (hid : e.owner = some id') : id' = id := by
  unfold answerEntries at he
  rcases List.mem_cons.1 he with rfl | he
  · exact (Option.some.inj hid).symm
  rcases List.mem_cons.1 he with rfl | he
  · cases hid
  split at he
  · rw [List.mem_singleton.1 he] at hid
    exact (Option.some.inj hid).symm
  · cases he

/-- An answer is noted as API calls are. -/
theorem answer_inert {n : H2.Note} (hn : n ∈ notes (answerEntries a id status content type)) :
    n.inert = true := by
  rw [mem_notes] at hn
  unfold answerEntries at hn
  rcases List.mem_cons.1 hn with heq | hn
  · cases heq
  rcases List.mem_cons.1 hn with heq | hn
  · rw [Entry.note.inj heq]
    rfl
  split at hn
  · rw [Entry.note.inj (List.mem_singleton.1 hn)]
    rfl
  · cases hn

/-- The answer that is decided on is allowed. -/
theorem answer_obeys (h : Obeys Rule log) (hno : ∀ status content, .answer id status content ∉ log)
    (hexecute : ∀ q reply, .execute id q reply ∈ log → status = reply.status ∧ content = reply.body) :
    Obeys Rule (log ++ answerEntries a id status content type) := by
  have hanswer : Obeys Rule (log ++ [.answer id status content]) :=
    History.obeys_concat.2 ⟨h, hno, hexecute⟩
  have hcall : Obeys Rule (log ++ [.answer id status content] ++
      [.note (.call (.respond id status (responseHeaders content.length type) true))]) :=
    History.obeys_concat.2 ⟨hanswer, content, type, by simp, rfl⟩
  unfold answerEntries
  split
  · have hresponse : Obeys Rule (log ++ [.answer id status content] ++
        [.note (.call (.respond id status (responseHeaders content.length type) true))] ++
        [.note (.response id)]) := History.obeys_concat.2 ⟨hcall, trivial⟩
    simpa using hresponse
  · simpa using hcall

theorem given_answer : given id (answerEntries a id status content type) = [] := by
  unfold given answerEntries
  split <;> rfl

/-- The record that holds the answer. -/
theorem Complete.of_answer (hid : x.id = id) (hcontent : x.content = content) (h : Backend.given id log = [])
    (hsent : x.sent = 0) : Complete (log ++ answerEntries a id status content type) x := by
  subst hid hcontent
  constructor
  · exact ⟨status, List.mem_append_right log List.mem_cons_self⟩
  · rw [hsent]
    exact Nat.zero_le _
  · rw [given_append, h, given_answer, hsent, List.take_zero, List.append_nil]
  · exact fun _ => hsent

/-- A note leaves the answer as it is. -/
theorem Complete.note {n : H2.Note} (h : Complete log x) : Complete (log ++ [.note n]) x := by
  constructor
  · obtain ⟨status, hmem⟩ := h.answer
    exact ⟨status, List.mem_append_left _ hmem⟩
  · exact h.sent
  · rw [given_append, h.given]
    exact List.append_nil _
  · exact h.head

/-- An answer reads no head. -/
theorem headRequest_answer {id' : Int} :
    HeadRequest id' (log ++ answerEntries a id status content type) ↔ HeadRequest id' log := by
  refine headRequest_append fun head => ?_
  unfold answerEntries
  split <;> simp

/-- The first head that is read. -/
theorem headRequest_parsed {head : Remote.RemoteHead} (hno : ¬ HeadRequest id log) :
    HeadRequest id (log ++ [.parsed id head]) ↔ head.head = true := by
  constructor
  · rintro ⟨head', hmem, hhead⟩
    rcases List.mem_append.1 hmem with hmem | hmem
    · exact absurd ⟨head', hmem, hhead⟩ hno
    · cases List.mem_singleton.1 hmem
      exact hhead
  · exact fun hhead => ⟨head, by simp, hhead⟩

theorem closed_append_of_inert (hnew : ∀ n ∈ notes new, n.inert = true) :
    H2.Closed id (notes (log ++ new)) ↔ H2.Closed id (notes log) := by
  rw [notes_append]
  exact H2.closed_append_inert hnew

theorem received_append_of_inert (hnew : ∀ n ∈ notes new, n.inert = true) :
    H2.received id (notes (log ++ new)) = H2.received id (notes log) := by
  rw [notes_append]
  exact H2.received_append_inert hnew

/-! ## A request -/

/-- What `request` logs is about its stream. -/
theorem Opens.owner {r : H2.Request} (h : Opens a r x new) {e : Entry} (he : e ∈ new) {id' : Int}
    (hid : e.owner = some id') : id' = r.stream := by
  cases h with
  | refuse head status json => exact answer_owner he hid
  | wait input parse path empty =>
    rw [List.mem_singleton.1 he] at hid
    exact (Option.some.inj hid).symm
  | answer api status content type parse =>
    rcases List.mem_cons.1 he with rfl | he
    · exact (Option.some.inj hid).symm
    · exact answer_owner he hid

theorem Opens.inert {r : H2.Request} (h : Opens a r x new) {n : H2.Note} (hn : n ∈ notes new) :
    n.inert = true := by
  cases h with
  | refuse head status json => exact answer_inert hn
  | wait input parse path empty => cases hn
  | answer api status content type parse => exact answer_inert hn

theorem Opens.stream {r : H2.Request} (h : Opens a r x new) : x.id = r.stream := by
  cases h <;> rfl

/-- What `request` logs is allowed for a stream that is new. -/
theorem Opens.obeys {r : H2.Request} (h : Opens a r x new) (hlog : Obeys Rule log)
    (hrequest : .note (.request r) ∈ log) (hfresh : ∀ e ∈ log, e.owner ≠ some r.stream) :
    Obeys Rule (log ++ new) := by
  have hnone {e : Entry} (he : e.owner = some r.stream) : e ∉ log := fun hmem => hfresh e hmem he
  have hparsed {head : Remote.RemoteHead} (hparse : Remote.remoteParse a.buffer r.headers = (.ok, head)) :
      Obeys Rule (log ++ [.parsed r.stream head]) :=
    History.obeys_concat.2 ⟨hlog, fun _ => hnone rfl, r, a.buffer, rfl, hrequest, hparse⟩
  cases h with
  | refuse head status json =>
    exact answer_obeys hlog (fun _ _ => hnone rfl) fun _ _ hmem => absurd hmem (hnone rfl)
  | wait input parse path empty => exact hparsed parse
  | @answer head api status content type parse =>
    have hanswer : Obeys Rule (log ++ [.parsed r.stream head] ++
        answerEntries a r.stream status content type) := by
      refine answer_obeys (hparsed parse) (fun _ _ hmem => ?_) fun _ _ hmem => ?_
      all_goals
        rcases List.mem_append.1 hmem with hmem | hmem
        · exact absurd hmem (hnone rfl)
        · cases List.mem_singleton.1 hmem
    simpa using hanswer

/-- The record that `request` writes agrees with the log. -/
theorem Opens.slot {r : H2.Request} (h : Opens a r x new) (hrequest : .note (.request r) ∈ log)
    (hfresh : ∀ e ∈ log, e.owner ≠ some r.stream) (hopen : ¬ H2.Closed r.stream (notes log)) :
    Slot (log ++ new) x := by
  have hundecided : Undecided r.stream log := undecided_of_owner hfresh
  have hreceived : H2.received r.stream (notes (log ++ new)) = [] := by
    rw [received_append_of_inert fun n hn => h.inert hn]
    exact received_of_owner hfresh
  have hrequested : Requested r.stream (log ++ new) := ⟨r, rfl, List.mem_append_left new hrequest⟩
  have hopened : ¬ H2.Closed r.stream (notes (log ++ new)) := by
    rwa [closed_append_of_inert fun n hn => h.inert hn]
  have hhead : ¬ HeadRequest r.stream log := fun ⟨head, hmem, _⟩ => hfresh _ hmem rfl
  have hparsed {head : Remote.RemoteHead} :
      given r.stream (log ++ [.parsed r.stream head]) = [] := by
    rw [given_append, hundecided.given]
    rfl
  cases h with
  | refuse head status json =>
    refine ⟨hrequested, hopened, ?_, fun hopen => ?_, fun _ => .of_answer rfl rfl hundecided.given rfl⟩
    · rw [headRequest_answer]
      exact iff_of_false Bool.false_ne_true hhead
    · cases hopen
  | @wait head input parse path empty =>
    refine ⟨hrequested, hopened, (headRequest_parsed hhead).symm, fun _ => ?_, fun hcomplete => ?_⟩
    · constructor
      · refine hundecided.append fun e he => ?_
        rw [List.mem_singleton.1 he]
        rfl
      · exact List.mem_append_right log List.mem_cons_self
      · exact path
      · rw [hreceived]
        exact empty
      · rw [hreceived]
        exact Nat.zero_le _
      · rfl
    · cases hcomplete
  | @answer head api status content type parse =>
    have hsplit : log ++ .parsed r.stream head :: answerEntries a r.stream status content type =
        log ++ [.parsed r.stream head] ++ answerEntries a r.stream status content type := by simp
    refine ⟨hrequested, hopened, ?_, fun hopen => ?_, fun _ => ?_⟩
    · rw [hsplit, headRequest_answer]
      exact (headRequest_parsed hhead).symm
    · cases hopen
    · rw [hsplit]
      exact .of_answer rfl rfl hparsed rfl

/-! ## The body -/

variable {d d' : Api.State} {bytes : Bytes} {fin : Bool}

theorem Reacts.stream (h : Reacts l a d x bytes fin y d' new) : y.id = x.id := by
  cases h <;> rfl

/-- What `data` logs is about its stream. -/
theorem Reacts.owner (h : Reacts l a d x bytes fin y d' new) {e : Entry} (he : e ∈ new) {id' : Int}
    (hid : e.owner = some id') : id' = x.id := by
  cases h with
  | discard complete => cases he
  | wait empty more => cases he
  | collect open_ input fits more => cases he
  | refuse open_ => exact answer_owner he hid
  | execute open_ ended body fits whole =>
    rcases List.mem_cons.1 he with rfl | he
    · exact (Option.some.inj hid).symm
    · exact answer_owner he hid

theorem Reacts.inert (h : Reacts l a d x bytes fin y d' new) {n : H2.Note} (hn : n ∈ notes new) :
    n.inert = true := by
  cases h with
  | discard complete => cases hn
  | wait empty more => cases hn
  | collect open_ input fits more => cases hn
  | refuse open_ => exact answer_inert hn
  | execute open_ ended body fits whole => exact answer_inert hn

/-- The request that is executed is the one that came, with its whole body. -/
theorem Waiting.execute_rule {used : Bytes} {reply : Api.Reply} (hw : Waiting log x)
    (hbody : x.input.getD [] = used)
    (hwhole : x.request.hasLength = true → x.request.contentLength = used.length) :
    Rule (log ++ [.note (.data x.id [] true)]) (.execute x.id (apiRequest x.request used) reply) := by
  have hundecided : Undecided x.id (log ++ [.note (.data x.id [] true)]) := by
    refine hw.undecided.append fun e he => ?_
    rw [List.mem_singleton.1 he]
    rfl
  have hreceived : H2.received x.id (notes (log ++ [.note (.data x.id [] true)])) = used := by
    rw [notes_append, H2.received_append, ← hw.body, hbody]
    exact List.append_nil used
  have hdecides {e : Entry} (he : e.decides x.id = true) : e ∉ log ++ [.note (.data x.id [] true)] :=
    hundecided.none he
  refine ⟨fun _ _ => hdecides (decide_eq_true rfl), fun _ _ => hdecides (decide_eq_true rfl), by simp,
    x.request, List.mem_append_left _ hw.parsed, hw.path, ?_, ?_, hwhole⟩
  · rw [hreceived]
  · show used.length ≤ Remote.bodyMax
    rw [← hbody, hw.body]
    exact hw.fits

/-- What `data` logs is allowed. -/
theorem Reacts.obeys (h : Reacts l a d x bytes fin y d' new) (hlog : Obeys Rule log) (hslot : Slot log x)
    (hend : fin = true → bytes = []) :
    Obeys Rule (log ++ [.note (.data x.id bytes fin)] ++ new) := by
  have hbase : Obeys Rule (log ++ [.note (.data x.id bytes fin)]) :=
    History.obeys_concat.2 ⟨hlog, trivial⟩
  have hundecided (hopen : x.complete = false) : Undecided x.id (log ++ [.note (.data x.id bytes fin)]) := by
    refine (hslot.waiting hopen).undecided.append fun e he => ?_
    rw [List.mem_singleton.1 he]
    rfl
  cases h with
  | discard complete => simpa using hbase
  | wait empty more => simpa using hbase
  | collect open_ input fits more => simpa using hbase
  | refuse hopen =>
    have hno {e : Entry} (he : e.decides x.id = true) : e ∉ log ++ [.note (.data x.id bytes fin)] :=
      (hundecided hopen).none he
    exact answer_obeys hbase (fun _ _ => hno (decide_eq_true rfl)) fun _ _ hmem =>
      absurd hmem (hno (decide_eq_true rfl))
  | @execute used hopen ended body fits whole =>
    obtain rfl : bytes = [] := hend ended
    rw [List.append_nil] at body
    subst ended
    have hexecute : Obeys Rule (log ++ [.note (.data x.id [] true)] ++ [.execute x.id
        (apiRequest x.request used) (Api.serve l a.api (apiRequest x.request used) d).1]) :=
      History.obeys_concat.2 ⟨hbase, (hslot.waiting hopen).execute_rule body whole⟩
    rw [List.append_cons]
    refine answer_obeys hexecute (fun _ _ hmem => ?_) fun _ _ hmem => ?_
    · rcases List.mem_append.1 hmem with hmem | hmem
      · exact absurd hmem ((hundecided hopen).none (decide_eq_true rfl))
      · cases List.mem_singleton.1 hmem
    · rcases List.mem_append.1 hmem with hmem | hmem
      · exact absurd hmem ((hundecided hopen).none (decide_eq_true rfl))
      · cases List.mem_singleton.1 hmem
        exact ⟨rfl, rfl⟩

/-- The record that `data` leaves agrees with the log. -/
theorem Reacts.slot (h : Reacts l a d x bytes fin y d' new) (hslot : Slot log x)
    (hend : fin = true → bytes = []) : Slot (log ++ [.note (.data x.id bytes fin)] ++ new) y := by
  have hclosed : ¬ H2.Closed x.id (notes (log ++ [.note (.data x.id bytes fin)] ++ new)) := by
    rw [closed_append_of_inert fun n hn => h.inert hn]
    simpa [H2.Closed, mem_notes] using hslot.opened
  have hrequested : Requested x.id (log ++ [.note (.data x.id bytes fin)] ++ new) :=
    (hslot.requested.append _).append new
  have hundecided (hopen : x.complete = false) : Undecided x.id (log ++ [.note (.data x.id bytes fin)]) := by
    refine (hslot.waiting hopen).undecided.append fun e he => ?_
    rw [List.mem_singleton.1 he]
    rfl
  have hreceived (more : fin = false) : H2.received x.id (notes (log ++ [.note (.data x.id bytes fin)])) =
      H2.received x.id (notes log) ++ bytes := by
    rw [notes_append, H2.received_append, more]
    simp [notes, H2.received, H2.Note.bytes]
  have hhead : x.head = true ↔ HeadRequest x.id (log ++ [.note (.data x.id bytes fin)]) := by
    rw [headRequest_append (by simp)]
    exact hslot.head
  cases h with
  | discard complete =>
    rw [List.append_nil] at hclosed hrequested ⊢
    refine ⟨hrequested, hclosed, hhead, ?_, fun _ => ?_⟩
    · intro hopen
      rw [complete] at hopen
      cases hopen
    · exact (hslot.complete complete).note
  | wait empty more =>
    rw [List.append_nil] at hclosed hrequested ⊢
    refine ⟨hrequested, hclosed, hhead, fun hopen => ?_, fun hcomplete => ?_⟩
    · have hw := hslot.waiting hopen
      have hsame := hreceived more
      rw [empty, List.append_nil] at hsame
      subst empty
      refine ⟨hundecided hopen, List.mem_append_left _ hw.parsed, hw.path, ?_, ?_, hw.sent⟩
      · rw [hsame]
        exact hw.body
      · rw [hsame]
        exact hw.fits
    · exact (hslot.complete hcomplete).note
  | @collect used hopen input fits more =>
    rw [List.append_nil] at hclosed hrequested ⊢
    refine ⟨hrequested, hclosed, hhead, fun _ => ?_, fun hcomplete => ?_⟩
    · have hw := hslot.waiting hopen
      have hused : used = H2.received x.id (notes log) := by rw [← hw.body, input]; rfl
      refine ⟨hundecided hopen, List.mem_append_left _ hw.parsed, hw.path, ?_, ?_, hw.sent⟩
      · rw [hreceived more, ← hused]
        rfl
      · rw [hreceived more, ← hused, List.length_append]
        exact fits
    · rw [hopen] at hcomplete
      cases hcomplete
  | refuse hopen =>
    refine ⟨hrequested, hclosed, ?_, fun hfalse => ?_, fun _ => ?_⟩
    · rw [headRequest_answer]
      exact hhead
    · cases hfalse
    · exact .of_answer rfl rfl (hundecided hopen).given (hslot.waiting hopen).sent
  | @execute used hopen ended body fits whole =>
    rw [List.append_cons] at hclosed hrequested ⊢
    refine ⟨hrequested, hclosed, ?_, fun hfalse => ?_, fun _ => ?_⟩
    · rw [headRequest_answer, headRequest_append]
      · exact hhead
      · simp
    · cases hfalse
    · refine .of_answer rfl rfl ?_ (hslot.waiting hopen).sent
      rw [given_append, (hundecided hopen).given]
      rfl

end

/-! ## The answer is read -/

section
variable {log : List Entry} {x : Response}

/-- The next bytes of the answer. -/
theorem Slot.read {id : Int} {written capacity : Nat} (h : Slot log x) (hid : x.id = id)
    (hx : x.complete = true)
    (hwritten : written = if x.head then 0 else min (x.content.length - x.sent) capacity) :
    Rule log (.given id ((x.content.drop x.sent).take written)
        (x.head || x.sent + written = x.content.length)) ∧
      Slot (log ++ [.given id ((x.content.drop x.sent).take written)
        (x.head || x.sent + written = x.content.length)]) { x with sent := x.sent + written } := by
  subst hid
  have hc := h.complete hx
  obtain ⟨status, hanswer⟩ := hc.answer
  have hgiven : given x.id log ++ (x.content.drop x.sent).take written = x.content.take (x.sent + written) := by
    rw [hc.given, List.take_add]
  have hle : x.sent + written ≤ x.content.length := by
    have hsent := hc.sent
    rw [hwritten]
    split <;> omega
  constructor
  · refine ⟨status, x.content, hanswer, fun hhead => ?_, fun hhead => ?_⟩
    · have hx' : x.head = true := h.head.2 hhead
      rw [if_pos hx'] at hwritten
      rw [hwritten, hx']
      exact ⟨List.take_zero, rfl⟩
    · have hx' : x.head = false := by simpa using fun hx' => hhead (h.head.1 hx')
      rw [hgiven, hx', Bool.false_or, decide_eq_true_iff]
      refine ⟨List.take_prefix _ _, fun heq => ?_, fun heq => ?_⟩
      · rw [heq, List.take_length]
      · have hlength := congrArg List.length heq
        rw [List.length_take] at hlength
        omega
  · constructor
    · exact h.requested.append _
    · rw [notes_append]
      simpa [notes] using h.opened
    · rw [headRequest_append (by simp)]
      exact h.head
    · intro hopen
      rw [hx] at hopen
      cases hopen
    · intro
      refine ⟨⟨status, List.mem_append_left _ hanswer⟩, hle, ?_, fun hx' => ?_⟩
      · rw [given_append, ← hgiven]
        simp [given, Entry.handed]
      · rw [if_pos hx'] at hwritten
        show x.sent + written = 0
        rw [hc.head hx', hwritten]

end

/-! ## What the device sees -/

/-- The remote requests of a run of the device, with what it answered. -/
def remotes (l : Api.Library) : List Api.Input → Api.State → List (Api.Request × Api.Reply)
  | [], _ => []
  | .request r a :: js, d =>
    (if r.remoteAccess then [(r, (Api.serve l a r d).1)] else []) ++ remotes l js (Api.step l (.request r a) d)
  | j :: js, d => remotes l js (Api.step l j d)

/-- The request that an entry says was executed, with its answer. -/
def Entry.executed : Entry → Option (Api.Request × Api.Reply)
  | .execute _ q reply => some (q, reply)
  | _ => none

/-- What the program does to the device is a run of it, and the requests that it logs are the remote ones
of this run, one after the other. -/
def Serves {α : Type} (l : Api.Library) (x : M α) : Prop :=
  ∀ s, ∃ new js, (x s).2.log = s.log ++ new ∧ (x s).2.device = Api.run l js s.device ∧
    remotes l js s.device = new.filterMap Entry.executed

section
variable {l : Api.Library} {assets : List Asset} {a : Answers} {s : State} {id : Int}

theorem remotes_append (js ks : List Api.Input) (d : Api.State) :
    remotes l (js ++ ks) d = remotes l js d ++ remotes l ks (Api.run l js d) := by
  induction js generalizing d with
  | nil => rfl
  | cons j js ih =>
    cases j with
    | request r a =>
      rw [List.cons_append, remotes, remotes, ih, List.append_assoc]
      rfl
    | _ => exact ih _

theorem executed_answer {status : Nat} {content type : Bytes} :
    (answerEntries a id status content type).filterMap Entry.executed = [] := by
  unfold answerEntries
  split <;> rfl

theorem Serves.bind {α β : Type} {x : M α} {f : α → M β} (hx : Serves l x) (hf : ∀ a, Serves l (f a)) :
    Serves l (x >>= f) := by
  intro s
  obtain ⟨new, js, hlog, hdevice, hremotes⟩ := hx s
  obtain ⟨new', js', hlog', hdevice', hremotes'⟩ := hf (x s).1 (x s).2
  refine ⟨new ++ new', js ++ js', ?_, ?_, ?_⟩
  · rw [run_bind, hlog', hlog, List.append_assoc]
  · rw [run_bind, hdevice', hdevice, Api.run, Api.run, Api.run, Past.run_append]
  · rw [remotes_append, hremotes, List.filterMap_append, ← hremotes', hdevice]

/-- A program that leaves the device alone and logs nothing that was executed. -/
theorem Serves.of_eq {α : Type} {x : M α} (h : ∀ s, ∃ new, (x s).2.log = s.log ++ new ∧
    (x s).2.device = s.device ∧ new.filterMap Entry.executed = []) : Serves l x := by
  intro s
  obtain ⟨new, hlog, hdevice, hnew⟩ := h s
  exact ⟨new, [], hlog, hdevice, hnew.symm⟩

theorem say_serves {e : Entry} (he : e.executed = none) : Serves l (say e) :=
  .of_eq fun s => ⟨[e], rfl, rfl, by simp [he]⟩

theorem request_serves {r : H2.Request} : Serves l (request assets a r) := by
  refine .of_eq fun s => ?_
  cases hfind : find 0 s with
  | none =>
    have hrun : request assets a r s = (.limit, s) := by
      unfold request
      rw [run_bind_eq (run_get s), hfind]
      rfl
    rw [hrun]
    exact ⟨[], (List.append_nil _).symm, rfl, rfl⟩
  | some i =>
    obtain ⟨x, new, heq, hopens⟩ := request_opens assets a r hfind
    rw [heq]
    refine ⟨new, rfl, rfl, ?_⟩
    cases hopens with
    | refuse head status json => exact executed_answer
    | wait input parse path empty => rfl
    | answer api status content type parse =>
      rw [List.filterMap_cons_none rfl]
      exact executed_answer

theorem data_serves {bytes : Bytes} {fin : Bool} : Serves l (data l a id bytes fin) := by
  intro s
  cases hfind : find id s with
  | none =>
    have hrun : data l a id bytes fin s = (.state, s) := by
      unfold data
      rw [run_bind_eq (run_get s), hfind]
      rfl
    rw [hrun]
    exact ⟨[], [], (List.append_nil _).symm, rfl, rfl⟩
  | some i =>
    obtain ⟨y, d, new, heq, hreacts⟩ := data_reacts l a bytes fin hfind
    rw [heq]
    cases hreacts with
    | discard complete => exact ⟨[], [], rfl, rfl, rfl⟩
    | wait empty more => exact ⟨[], [], rfl, rfl, rfl⟩
    | collect open_ input fits more => exact ⟨[], [], rfl, rfl, rfl⟩
    | refuse open_ => exact ⟨_, [], rfl, rfl, executed_answer.symm⟩
    | execute open_ ended body fits whole =>
      refine ⟨_, [.request (apiRequest (s.responses i).request _) a.api], rfl, rfl, ?_⟩
      simp [remotes, executed_answer, Entry.executed, apiRequest]

theorem read_serves {capacity : Nat} : Serves l (readResponse id capacity) := by
  refine .of_eq fun s => ?_
  unfold readResponse
  rw [run_bind_eq (run_get s)]
  cases find id s with
  | none => exact ⟨[], (List.append_nil _).symm, rfl, rfl⟩
  | some i => exact ⟨[_], rfl, rfl, rfl⟩

theorem closed_serves : Serves l (closed id) := by
  refine .of_eq fun s => ?_
  unfold closed
  rw [run_bind_eq (run_get s)]
  cases find id s with
  | none => exact ⟨[], (List.append_nil _).symm, rfl, rfl⟩
  | some i => exact ⟨[], (List.append_nil _).symm, rfl, rfl⟩

theorem callback_serves {n : H2.Note} {x : M Result} (hx : Serves l x) : Serves l (callback n x) :=
  .bind (say_serves rfl) fun _ => .bind hx fun _ => say_serves rfl

end

/-! ## Steps -/

section
variable {l : Api.Library} {assets : List Asset} {a : Answers} {i : Fin records} {s : State} {id : Int}

theorem callback_eq (n : H2.Note) (x : M Result) (s : State) : (callback n x s).2 =
    let s' : State := (x { s with log := s.log ++ [.note n] }).2
    { s' with log := s'.log ++ [.note (.returned n (x { s with log := s.log ++ [.note n] }).1)] } := rfl

theorem id_of_find (h : find id s = some i) : (s.responses i).id = id := by
  simpa using Table.of_lookup_eq_some h

theorem ne_of_find (h : find id s = none) (i : Fin records) : (s.responses i).id ≠ id := by
  simpa using Table.lookup_eq_none.1 h i

/-- Nothing has been logged for a stream that the session has not asked for. -/
theorem Inv.fresh (h : Inv s.log s.responses) (hid : ¬ Requested id s.log) :
    (∀ e ∈ s.log, e.owner ≠ some id) ∧ ∀ j, (s.responses j).id ≠ 0 → (s.responses j).id ≠ id :=
  ⟨fun e he hown => hid (h.asked e he id hown), fun j hj heq => hid (heq ▸ (h.slots j hj).requested)⟩

theorem request_inv {r : H2.Request} (h : Inv s.log s.responses)
    (hallowed : H2.Allowed (notes s.log) (.request r)) (hr : r.stream ≠ 0) :
    Inv (callback (.request r) (request assets a r) s).2.log
      (callback (.request r) (request assets a r) s).2.responses := by
  rw [callback_eq]
  obtain ⟨s₁, hs₁⟩ : ∃ s₁ : State, s₁ = { s with log := s.log ++ [.note (.request r)] } := ⟨_, rfl⟩
  rw [← hs₁]
  have hlog : s₁.log = s.log ++ [.note (.request r)] := by rw [hs₁]
  have hsame : s₁.responses = s.responses := by rw [hs₁]
  have hnew : ¬ Requested r.stream s.log := fun ⟨r', hr', hmem⟩ => hallowed.1 r' (mem_notes.2 hmem) hr'
  obtain ⟨hfresh, hothers⟩ := h.fresh hnew
  have hinv : Inv s₁.log s₁.responses := by
    rw [hlog, hsame]
    exact h.note rfl trivial nofun (fun r' heq => H2.Note.request.inj heq ▸ hr) nofun
  have hrequested : Requested r.stream s₁.log := ⟨r, rfl, by simp [hlog]⟩
  have hback {log : List Entry} {t : Fin records → Response} {rc : Result} (h₂ : Inv log t)
      (hlog₂ : s₁.log <+: log) : Inv (log ++ [.note (.returned (.request r) rc)]) t := by
    refine h₂.note rfl trivial nofun nofun fun r' heq => ?_
    obtain rfl : r = r' := H2.Note.request.inj (H2.Note.returned.inj heq).1
    obtain ⟨rest, hrest⟩ := hlog₂
    exact hrest ▸ hrequested.append rest
  cases hfind : find 0 s₁ with
  | none =>
    have hrun : request assets a r s₁ = (.limit, s₁) := by
      unfold request
      rw [run_bind_eq (run_get s₁), hfind]
      rfl
    rw [hrun]
    exact hback hinv (List.prefix_refl _)
  | some i =>
    obtain ⟨x, new, heq, hopens⟩ := request_opens assets a r hfind
    rw [heq]
    suffices hinv₂ : Inv (s₁.log ++ new) (Function.update s₁.responses i x) from
      hback hinv₂ (List.prefix_append _ new)
    have hfresh₁ : ∀ e ∈ s₁.log, e.owner ≠ some r.stream := by
      intro e he
      rw [hlog, List.mem_append, List.mem_singleton] at he
      rcases he with he | rfl
      · exact hfresh e he
      · exact nofun
    have hopen₁ : ¬ H2.Closed r.stream (notes s₁.log) := by
      rw [hlog]
      simpa [H2.Closed, mem_notes] using hallowed.2.2
    have hpast : .note (.request r) ∈ s₁.log := by simp [hlog]
    refine hinv.answer (hopens.obeys hinv.rule hpast hfresh₁) (plain_of_inert fun n hn => hopens.inert hn)
      (fun e he id' hid => hopens.owner he hid) hrequested (fun j _ => ?_) hopens.stream
      (hopens.slot hpast hfresh₁ hopen₁)
    rw [hsame]
    exact hothers j

/-- The body of a stream comes only when the application has accepted it. -/
theorem data_inv {bytes : Bytes} {fin : Bool} (h : Inv s.log s.responses)
    (hallowed : H2.Allowed (notes s.log) (.data id bytes fin)) :
    Inv (callback (.data id bytes fin) (data l a id bytes fin) s).2.log
      (callback (.data id bytes fin) (data l a id bytes fin) s).2.responses := by
  rw [callback_eq]
  obtain ⟨s₁, hs₁⟩ : ∃ s₁ : State, s₁ = { s with log := s.log ++ [.note (.data id bytes fin)] } := ⟨_, rfl⟩
  rw [← hs₁]
  have hlog : s₁.log = s.log ++ [.note (.data id bytes fin)] := by rw [hs₁]
  have hsame : s₁.responses = s.responses := by rw [hs₁]
  have hrequested : Requested id s.log := h.accepted id hallowed.1
  have h0 : id ≠ 0 := h.nonzero id hrequested
  cases hfind : find id s₁ with
  | none =>
    have hrun : data l a id bytes fin s₁ = (.state, s₁) := by
      unfold data
      rw [run_bind_eq (run_get s₁), hfind]
      rfl
    rw [hrun]
    refine Inv.returned ?_ nofun
    rw [hlog, hsame]
    refine h.pass id (History.obeys_concat.2 ⟨h.rule, trivial⟩) (fun e he id' hid => ?_) ?_ ?_ ?_ fun j _ => ?_
    · rw [List.mem_singleton.1 he] at hid
      exact ⟨(Option.some.inj hid).symm, hrequested.append _⟩
    · simp
    · simp
    · simp [H2.Closed, mem_notes]
    · rw [← hsame]
      exact ne_of_find hfind j
  | some i =>
    obtain ⟨y, d, new, heq, hreacts⟩ := data_reacts l a bytes fin hfind
    rw [heq]
    refine Inv.returned (t := Function.update s₁.responses i y) ?_ nofun
    have hi : (s.responses i).id = id := hsame ▸ id_of_find hfind
    rw [hsame] at hreacts ⊢
    rw [hlog]
    have hslot : Slot s.log (s.responses i) := h.slots i (hi ▸ h0)
    have hend : fin = true → bytes = [] := by
      intro hfin
      simpa [hfin] using hallowed.2.2.2.2
    have hobeys := hreacts.obeys h.rule hslot hend
    have hy := hreacts.slot hslot hend
    rw [hi, List.append_assoc] at hobeys hy
    rw [List.append_assoc]
    refine h.answer hobeys ?_ ?_ hrequested (fun j hj hj0 heq' => ?_) (hreacts.stream.trans hi) hy
    · intro e he
      rcases List.mem_cons.1 he with rfl | he
      · rfl
      · exact plain_of_inert (fun n hn => hreacts.inert hn) e he
    · intro e he id' hid
      rcases List.mem_cons.1 he with rfl | he
      · exact (Option.some.inj hid).symm
      · exact (hreacts.owner he hid).trans hi
    · exact hj (h.distinct j i hj0 (heq'.trans hi.symm))

/-- The session reads an answer only when the response was accepted. -/
theorem read_inv {capacity : Nat} (h : Inv s.log s.responses)
    (hallowed : H2.Allowed (notes s.log) (.read id capacity)) :
    Inv (callback (.read id capacity) (readResponse id capacity) s).2.log
      (callback (.read id capacity) (readResponse id capacity) s).2.responses := by
  rw [callback_eq]
  obtain ⟨s₁, hs₁⟩ : ∃ s₁ : State, s₁ = { s with log := s.log ++ [.note (.read id capacity)] } := ⟨_, rfl⟩
  rw [← hs₁]
  have hlog : s₁.log = s.log ++ [.note (.read id capacity)] := by rw [hs₁]
  have hsame : s₁.responses = s.responses := by rw [hs₁]
  have hinv : Inv s₁.log s₁.responses := by
    rw [hlog, hsame]
    exact h.note rfl trivial nofun nofun nofun
  refine Inv.returned ?_ nofun
  cases hfind : find id s₁ with
  | none =>
    have hrun : readResponse id capacity s₁ = (.state, s₁) := by
      unfold readResponse
      rw [run_bind_eq (run_get s₁), hfind]
      rfl
    rw [hrun]
    exact hinv
  | some i =>
    have hresponse : .note (.response id) ∈ s₁.log := by
      rw [hlog]
      exact List.mem_append_left _ (mem_notes.1 hallowed.1)
    have hrequested : Requested id s₁.log := hinv.asked _ hresponse id rfl
    have hi : (s₁.responses i).id = id := id_of_find hfind
    have hslot : Slot s₁.log (s₁.responses i) := hinv.slots i (hi ▸ hinv.nonzero id hrequested)
    have hcomplete : (s₁.responses i).complete = true := by
      by_contra hopen
      rw [Bool.not_eq_true] at hopen
      have hundecided := (hslot.waiting hopen).undecided
      rw [hi] at hundecided
      exact absurd hresponse (hundecided.none (decide_eq_true rfl))
    have hc := hslot.complete hcomplete
    unfold readResponse
    rw [run_bind_eq (run_get s₁), hfind]
    dsimp only
    unfold setResponse say
    rw [run_bind_eq (run_modify _ _), run_bind_eq (run_modify _ _)]
    obtain ⟨written, hwritten⟩ : ∃ n, n = if (s₁.responses i).head then 0 else
      min ((s₁.responses i).content.length - (s₁.responses i).sent) capacity := ⟨_, rfl⟩
    obtain ⟨hrule, hy⟩ := hslot.read hi hcomplete hwritten
    dsimp only
    rw [← hwritten]
    refine hinv.answer (History.obeys_concat.2 ⟨hinv.rule, hrule⟩) ?_ ?_ hrequested
      (fun j hj hj0 heq => hj (hinv.distinct j i hj0 (heq.trans hi.symm))) hi hy
    · intro e he
      rw [List.mem_singleton.1 he]
      rfl
    · intro e he id' hid
      rw [List.mem_singleton.1 he] at hid
      exact (Option.some.inj hid).symm

/-- The record of a stream goes with the stream. -/
theorem closed_inv {error : Nat} (h : Inv s.log s.responses) :
    Inv (callback (.closed id error) (do closed id; return .ok) s).2.log
      (callback (.closed id error) (do closed id; return .ok) s).2.responses := by
  rw [callback_eq]
  obtain ⟨s₁, hs₁⟩ : ∃ s₁ : State, s₁ = { s with log := s.log ++ [.note (.closed id error)] } := ⟨_, rfl⟩
  rw [← hs₁]
  have hlog : s₁.log = s.log ++ [.note (.closed id error)] := by rw [hs₁]
  have hsame : s₁.responses = s.responses := by rw [hs₁]
  refine Inv.returned ?_ nofun
  have hobeys : Obeys Rule (s.log ++ [.note (.closed id error)]) :=
    History.obeys_concat.2 ⟨h.rule, trivial⟩
  have howner : ∀ e ∈ [Entry.note (.closed id error)], ∀ id', e.owner = some id' →
      id' = id ∧ Requested id (s.log ++ [.note (.closed id error)]) := by
    intro e he id' hid
    rw [List.mem_singleton.1 he] at hid
    cases hid
  have hclosed : ∀ id', id' ≠ id → H2.Closed id' (notes (s.log ++ [.note (.closed id error)])) →
      H2.Closed id' (notes s.log) := by
    rintro id' hne ⟨error', hmem⟩
    rw [mem_notes, List.mem_append, List.mem_singleton] at hmem
    rcases hmem with hmem | hmem
    · exact ⟨error', mem_notes.2 hmem⟩
    · exact absurd (H2.Note.closed.inj (Entry.note.inj hmem)).1 hne
  cases hfind : find id s₁ with
  | none =>
    have hrun : closed id s₁ = (⟨⟩, s₁) := by
      unfold closed
      rw [run_bind_eq (run_get s₁), hfind]
      rfl
    rw [run_bind_eq hrun]
    show Inv s₁.log s₁.responses
    rw [hlog, hsame]
    refine h.pass id hobeys howner (by simp) (by simp) hclosed fun j _ => ?_
    rw [← hsame]
    exact ne_of_find hfind j
  | some i =>
    have hi : (s.responses i).id = id := hsame ▸ id_of_find hfind
    have hrun : closed id s₁ = (⟨⟩, { s₁ with responses := Function.update s₁.responses i {} }) := by
      unfold closed
      rw [run_bind_eq (run_get s₁), hfind]
      rfl
    rw [run_bind_eq hrun]
    show Inv s₁.log (Function.update s₁.responses i {})
    rw [hlog, hsame]
    refine h.write hobeys howner (by simp) (by simp) hclosed (fun j hj h0 => ⟨fun heq => ?_, h0⟩) ?_
    · exact hj (h.distinct j i h0 (heq.trans hi.symm))
    · exact fun h0 => absurd rfl h0

/-- The stream of a request that the session brings. -/
def Input.stream : Input → Option Int
  | .request r _ => some r.stream
  | _ => none

/-- One callback keeps the agreement. -/
theorem step_inv {x : Input} (h : Inv s.log s.responses)
    (hallowed : Obeys H2.Allowed (notes (step l assets x s).log)) (hx : x.stream ≠ some 0) :
    Inv (step l assets x s).log (step l assets x s).responses := by
  have hnote {n : H2.Note} {y : M Result} (hy : Serves l y)
      (hobeys : Obeys H2.Allowed (notes (callback n y s).2.log)) : H2.Allowed (notes s.log) n := by
    obtain ⟨new, -, hnew, -⟩ := hy { s with log := s.log ++ [.note n] }
    rw [callback_eq] at hobeys
    dsimp only at hobeys hnew
    rw [hnew, List.append_assoc, List.append_assoc, notes_append] at hobeys
    exact hobeys (notes s.log) n _ rfl
  cases x with
  | request r a =>
    exact request_inv h (hnote request_serves hallowed) fun h0 => hx (congrArg some h0)
  | data id bytes fin a => exact data_inv h (hnote data_serves hallowed)
  | read id capacity => exact read_inv h (hnote read_serves hallowed)
  | closed id error => exact closed_inv h
  | reset id => exact h.note rfl trivial nofun nofun nofun
  | device i => exact h

/-- One step is a run of the device, too, in which only the requests that are logged are remote ones. -/
theorem step_serves (l : Api.Library) (assets : List Asset) (s : State) (x : Input)
    (hx : ∀ r a, x = .device (.request r a) → r.remoteAccess = false) :
    ∃ new js, (step l assets x s).log = s.log ++ new ∧ (step l assets x s).device = Api.run l js s.device ∧
      remotes l js s.device = new.filterMap Entry.executed := by
  cases x with
  | request r a => exact callback_serves request_serves s
  | data id bytes fin a => exact callback_serves data_serves s
  | read id capacity => exact callback_serves read_serves s
  | closed id error => exact callback_serves (.bind closed_serves fun _ => .of_eq fun s => ⟨[], by simp⟩) s
  | reset id => exact say_serves rfl s
  | device i =>
    refine ⟨[], [i], (List.append_nil _).symm, rfl, ?_⟩
    cases i with
    | request r a => simp [remotes, hx r a rfl]
    | _ => rfl

end

/-! ## Runs -/

section
variable {l : Api.Library} {assets : List Asset} {is : List Input} {device : Api.State}

theorem init_inv : Inv [] (fun _ => {}) := by
  have hid (i : Fin records) : ((fun _ => {} : Fin records → Response) i).id = 0 := rfl
  constructor
  · exact History.Obeys.nil
  · exact fun i h => absurd (hid i) h
  · exact fun i j h => absurd (hid i) h
  · intro e he
    cases he
  · rintro id ⟨r, -, hmem⟩
    cases hmem
  · rintro id ⟨r, -, hmem⟩
    cases hmem

/-- In every run of a session, the log keeps the rule: a request is executed at most once, when its stream
has ended, with the head that was read and the whole body, and the bytes that are handed out are those of
its one answer, in order. The device has served these requests one after the other, and there is no record
of a stream that is closed. -/
theorem remote_exchange (l : Api.Library) (assets : List Asset) (device : Api.State) (is : List Input)
    (hallowed : Obeys H2.Allowed (notes (run l assets is { device }).log))
    (hstreams : ∀ i ∈ is, i.stream ≠ some 0)
    (hlocal : ∀ r a, .device (.request r a) ∈ is → r.remoteAccess = false) :
    let s := run l assets is { device }
    Obeys Rule s.log ∧
    (∃ js, s.device = Api.run l js device ∧ remotes l js device = s.log.filterMap Entry.executed) ∧
    ∀ i, (s.responses i).id ≠ 0 → ¬ H2.Closed (s.responses i).id (notes s.log) := by
  intro s
  have hrun : Inv s.log s.responses ∧
      ∃ js, s.device = Api.run l js device ∧ remotes l js device = s.log.filterMap Entry.executed := by
    induction is using List.reverseRecOn with
    | nil => exact ⟨init_inv, [], rfl, rfl⟩
    | append_singleton is x ih =>
      have hstep : s = step l assets x (run l assets is { device }) := Past.run_concat _ _ _ _
      obtain ⟨new, js, hlog, hdevice, hremotes⟩ :=
        step_serves l assets (run l assets is { device }) x fun r a heq =>
          hlocal r a (heq ▸ List.mem_append_right _ List.mem_cons_self)
      have hbefore : Obeys H2.Allowed (notes (run l assets is { device }).log) := by
        have hnow : Obeys H2.Allowed (notes s.log) := hallowed
        rw [hstep, hlog, notes_append] at hnow
        exact hnow.of_append
      obtain ⟨hinv, ks, hks, hpast⟩ := ih hbefore (fun i hi => hstreams i (List.mem_append_left _ hi))
        fun r a hr => hlocal r a (List.mem_append_left _ hr)
      refine ⟨?_, ks ++ js, ?_, ?_⟩
      · rw [hstep]
        refine step_inv hinv ?_ (hstreams x (List.mem_append_right _ List.mem_cons_self))
        rw [← hstep]
        exact hallowed
      · rw [hstep, hdevice, hks, Api.run, Api.run, Api.run, Past.run_append]
      · rw [remotes_append, hpast, ← hks, hremotes, hstep, hlog, List.filterMap_append]
  exact ⟨hrun.1.rule, hrun.2, fun i h0 => (hrun.1.slots i h0).opened⟩

end

/-- A request without a session, with a body. -/
def sampleRequest : H2.Request where
  stream := 1
  kind := .http
  headers := [⟨text ":method", text "POST"⟩, ⟨text ":path", text "/api/gpio"⟩,
    ⟨text ":authority", text "device.example"⟩, ⟨text "content-type", text "application/json"⟩,
    ⟨text "content-length", text "2"⟩]
  endStream := false

/-- The body comes, the answer is read in two parts, and the stream is closed. -/
def sampleInputs : List Input :=
  [.request sampleRequest {}, .data 1 (text "\x7b\x7d") false {}, .data 1 [] true {}, .read 1 10,
    .read 1 4096, .closed 1 0]

theorem remote_exchange_sample :
    let s := run Api.sampleLibrary [] sampleInputs { device := {} }
    Obeys Rule s.log ∧ given 1 s.log = (Api.error 401
      "Unlock Settings with the device password. Sessions expire after 10 minutes.").body := by
  have hnotes : notes (run Api.sampleLibrary [] sampleInputs { device := {} }).log =
      [] ++ [.request sampleRequest] ++ [.returned (.request sampleRequest) .ok] ++
        [.data 1 (text "\x7b\x7d") false] ++ [.returned (.data 1 (text "\x7b\x7d") false) .ok] ++
        [.data 1 [] true] ++
        [.call (.respond 1 401 (responseHeaders 87 (text "application/json")) true)] ++ [.response 1] ++
        [.returned (.data 1 [] true) .ok] ++ [.read 1 10] ++ [.returned (.read 1 10) .ok] ++
        [.read 1 4096] ++ [.returned (.read 1 4096) .ok] ++ [.closed 1 0] ++
        [.returned (.closed 1 0) .ok] := by
    decide +kernel
  have hallowed : Obeys H2.Allowed (notes (run Api.sampleLibrary [] sampleInputs { device := {} }).log) := by
    rw [hnotes]
    simp only [History.obeys_concat]
    have hbody : 1 ≤ (text "\x7b\x7d").length ∧ (text "\x7b\x7d").length ≤ H2.chunk := by decide +kernel
    simpa [History.Obeys.nil, H2.Allowed, H2.Accepted, H2.Closed, sampleRequest] using hbody
  have hlocal : ∀ r a, .device (.request r a) ∈ sampleInputs → r.remoteAccess = false := by
    simp [sampleInputs]
  obtain ⟨hrule, -⟩ := remote_exchange Api.sampleLibrary [] {} sampleInputs hallowed
    (by simp [sampleInputs, Input.stream, sampleRequest]) hlocal
  exact ⟨hrule, by decide +kernel⟩

end EspCfTunnel.Backend
