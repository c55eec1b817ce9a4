import EspCfTunnel.Lib.History
import EspCfTunnel.Monitor.Ota

/-!
# What an upload commits

Since the last start, the chunks that were accepted (`accepted`) are what was written to the slot, in
order (`flashed`), and what was hashed. This holds while an upload is active (`Uploading`) and is all
that is needed when the slot is made the boot partition. Everything that ends an upload closes the
handle and wipes the session (`release_eq`).
-/

namespace EspCfTunnel.Ota

open EspCfTunnel StateLogic History

variable {a : Answers} {f : Format} {sha : Bytes → Bytes} {s : State} {p : Partition} {bytes : Bytes}

/-! ## Reading the log -/

/-- The last start: the partition, the announced size and digest, and the session. -/
def latest : List Event → Option (Partition × Nat × Bytes × Bytes)
  | [] => none
  | .start p size sha256 id :: _ => some (p, size, sha256, id)
  | _ :: log => latest log

/-- The chunks that were accepted since the last start, in order. -/
def accepted : List Event → List Bytes
  | [] => []
  | .start .. :: _ => []
  | .accept bytes :: log => accepted log ++ [bytes]
  | _ :: log => accepted log

/-- What was written to flash since the last start, in order. -/
def flashed : List Event → List (Partition × Nat × Bytes)
  | [] => []
  | .start .. :: _ => []
  | .flash p offset bytes :: log => flashed log ++ [(p, offset, bytes)]
  | _ :: log => flashed log

/-- Chunks one behind the other in a partition. -/
def placed (p : Partition) : Nat → List Bytes → List (Partition × Nat × Bytes)
  | _, [] => []
  | offset, bytes :: rest => (p, offset, bytes) :: placed p (offset + bytes.length) rest

theorem placed_concat (p : Partition) (offset : Nat) (chunks : List Bytes) (bytes : Bytes) :
    placed p offset (chunks ++ [bytes]) =
      placed p offset chunks ++ [(p, offset + chunks.flatten.length, bytes)] := by
  induction chunks generalizing offset with
  | nil => simp [placed]
  | cons chunk chunks ih =>
    rw [List.cons_append, placed, ih, placed, List.cons_append, List.flatten_cons, List.length_append,
      Nat.add_assoc]

/-- The slot of the last start may be selected once it holds what was announced. -/
def BootRule (sha : Bytes → Bytes) (before : List Event) : Event → Prop
  | .boot p => ∃ q size sha256 id, p = some q ∧ latest before = some (q, size, sha256, id) ∧
      (accepted before).flatten.length = size ∧
      Token.hexBytes sha256 = some (sha (accepted before).flatten) ∧
      flashed before = placed q 0 (accepted before)
  | _ => True

/-! ## The invariant -/

/-- The handle is closed, or the only one that is open. -/
def Tidy (s : State) : Prop :=
  (s.upload.isOpen = false → s.handles = []) ∧
    (s.upload.isOpen = true → ∃ q offset, s.handles = [⟨s.upload.handle, q, offset⟩])

/-- An upload into `p` is going on. -/
structure Uploading (s : State) (p : Partition) : Prop where
  partition : s.upload.partition = some p
  latest : ∃ sha256 id, latest s.log = some (p, s.upload.total, sha256, id) ∧
    Token.hexBytes sha256 = some s.upload.expected
  received : s.upload.received = (accepted s.log).flatten.length
  fits : s.upload.received ≤ s.upload.total
  hash : s.upload.hash = some (accepted s.log).flatten
  flashed : flashed s.log = placed p 0 (accepted s.log)
  closed : s.upload.isOpen = false → s.handles = [] ∧ accepted s.log = []
  opened : s.upload.isOpen = true → s.handles = [⟨s.upload.handle, p, s.upload.received⟩]

theorem Uploading.tidy (h : Uploading s p) : Tidy s :=
  ⟨fun hc => (h.closed hc).1, fun ho => ⟨_, _, h.opened ho⟩⟩

/-- What holds between the calls. -/
structure Inv (sha : Bytes → Bytes) (s : State) : Prop where
  lawful : Lawful (BootRule sha) s.log
  active : s.upload.active = true → ∃ p, Uploading s p
  idle : s.upload.active = false → s.handles = [] ∧ s.upload.isOpen = false

theorem Inv.tidy (h : Inv sha s) : Tidy s := by
  cases hactive : s.upload.active with
  | true =>
    obtain ⟨p, hup⟩ := h.active hactive
    exact hup.tidy
  | false =>
    obtain ⟨hhandles, hclosed⟩ := h.idle hactive
    refine ⟨fun _ => hhandles, fun ho => ?_⟩
    rw [hclosed] at ho
    cases ho

/-! ## Ends of an upload -/

/-- What is said about an upload is of no importance to it. -/
theorem Inv.note (h : Inv sha s) (ready : Bool) (message : String) :
    Inv sha { s with upload := { s.upload with ready := ready, message := message } } where
  lawful := h.lawful
  active := by
    intro hactive
    obtain ⟨p, hup⟩ := h.active hactive
    exact ⟨p, hup.partition, hup.latest, hup.received, hup.fits, hup.hash, hup.flashed, hup.closed,
      hup.opened⟩
  idle := h.idle

theorem Inv.message (h : Inv sha s) (message : String) :
    Inv sha { s with upload := { s.upload with message := message } } :=
  h.note s.upload.ready message

/-- `release` closes what is open and wipes the session. -/
theorem release_eq (h : Tidy s) : release s = ((), { s with
    handles := []
    upload := { s.upload with
      isOpen := false, active := false, hash := none,
      id := List.replicate 32 0, expected := List.replicate 32 0 } }) := by
  rw [release, run_bind, run_get]
  dsimp only
  cases hopen : s.upload.isOpen with
  | false =>
    have hnone := h.1 hopen
    simp only [Bool.false_eq_true, if_false, run_modify]
    rw [← hnone]
  | true =>
    obtain ⟨q, offset, hone⟩ := h.2 hopen
    simp only [if_true, run_bind, otaAbort, closeHandle, run_modify, hone]
    simp

/-- An upload is given up: what follows `release` starts without one. -/
theorem release_inv {α : Type} {k : M α} (h : Tidy s) (hlog : Lawful (BootRule sha) s.log)
    (hk : ∀ s, Inv sha s → Inv sha (k s).2) : Inv sha ((release >>= fun _ => k) s).2 := by
  rw [run_bind, release_eq h]
  exact hk _ ⟨hlog, nofun, fun _ => ⟨rfl, rfl⟩⟩

theorem release_fail {reason : String} (h : Tidy s) (hlog : Lawful (BootRule sha) s.log) :
    Inv sha ((release >>= fun _ => fail reason) s).2 :=
  release_inv h hlog fun _ hs => hs.message reason

/-! ## The calls -/

theorem hashSetup_cases :
    hashSetup a s = (true, { s with upload := { s.upload with hash := some [] } }) ∨
      hashSetup a s = (false, s) := by
  rw [hashSetup, run_ite]
  split
  · exact .inr rfl
  · rw [run_bind, run_get]
    dsimp only
    rw [run_ite]
    split
    · exact .inl rfl
    · exact .inr rfl

theorem start_inv (h : Inv sha s) (size : Nat) (sha256 : Option Bytes) :
    Inv sha (start a f size sha256 s).2 := by
  unfold start
  rw [run_bind, run_get]
  dsimp only
  rw [run_ite]
  split
  · exact h.message _
  next hfree =>
  rw [run_ite]
  split
  · exact h.message _
  next havailable =>
  rw [run_ite]
  split
  · exact h.message _
  cases sha256 with
  | none => exact h.message _
  | some digest =>
    dsimp only
    rw [run_ite]
    split
    · exact h.message _
    cases hbytes : Token.hexBytes digest with
    | none => exact h.message _
    | some expected =>
      have hidle : s.handles = [] := (h.idle (by simpa using fun hactive => hfree (.inl hactive))).1
      obtain ⟨p, hp⟩ : ∃ p, a.next = some p := by
        cases hnext : a.next with
        | none => simp [snapshot, available, hnext] at havailable
        | some p => exact ⟨p, rfl⟩
      dsimp only
      rw [run_bind, run_modify, run_bind]
      obtain ⟨s₁, hs₁⟩ : ∃ s₁ : State, s₁ = { s with upload := {
        active := true, total := size, partition := a.next, expected := expected,
        id := Token.hexText (List.ofFn a.random), target := a.next.elim [] Partition.label,
        activityMs := a.now } } := ⟨_, rfl⟩
      rw [← hs₁]
      have hsetup := hashSetup_cases (a := a) (s := s₁)
      rcases hsetup with hsetup | hsetup
      · rw [hsetup, hs₁, hp]
        refine ⟨⟨trivial, h.lawful⟩, fun _ => ⟨p, ?_⟩, nofun⟩
        refine ⟨rfl, ⟨_, _, rfl, hbytes⟩, rfl, Nat.zero_le _, rfl, rfl, fun _ => ⟨hidle, rfl⟩, nofun⟩
      · rw [hsetup]
        refine release_fail ?_ ?_
        · rw [hs₁]
          exact ⟨fun _ => hidle, nofun⟩
        · rw [hs₁]
          exact h.lawful

/-- What `otaWrite` leaves when the slot is open. -/
theorem otaWrite_eq {h q offset : _} (hone : s.handles = [⟨h, q, offset⟩]) :
    otaWrite a h bytes s =
      if a.written then (true, { s with
        handles := [⟨h, q, offset + bytes.length⟩], log := .flash q offset bytes :: s.log })
      else (false, s) := by
  rw [otaWrite, run_bind, run_get, hone]
  dsimp only
  rw [List.find?_cons_of_pos (by simp)]
  dsimp only
  rw [run_ite]
  split
  · simp [run_bind]
  · rfl

theorem hashUpdate_eq {data : Bytes} (hhash : s.upload.hash = some data) :
    hashUpdate a bytes s =
      if a.updated then (true, { s with upload := { s.upload with hash := some (data ++ bytes) } })
      else (false, s) := by
  rw [hashUpdate, run_bind, run_get]
  dsimp only
  rw [hhash]
  dsimp only
  rw [run_ite]
  split
  · rfl
  · rfl

theorem hashFinish_eq {data : Bytes} (hhash : s.upload.hash = some data) :
    hashFinish a sha s = (if a.finished then some (sha data) else none,
      { s with upload := { s.upload with hash := none } }) := by
  rw [hashFinish, run_bind, run_get]
  dsimp only
  rw [hhash]
  rfl

theorem otaEnd_eq {h q offset : _} (hone : s.handles = [⟨h, q, offset⟩]) :
    otaEnd a h s = (a.ended, { s with handles := [] }) := by
  rw [otaEnd, run_bind, run_get, run_bind, closeHandle, run_modify, run_pure, hone]
  simp

theorem setBoot_eq (q : Option Partition) (s : State) :
    setBoot a q s = (a.booted && q.isSome, { s with log := .boot q :: s.log }) := rfl

/-- A chunk goes to the slot and into the hash, or ends the upload. -/
theorem writeChunk_inv (h : Uploading s p) (hlog : Lawful (BootRule sha) s.log)
    (hactive : s.upload.active = true) (hopen : s.upload.isOpen = true)
    (hfits : bytes.length ≤ s.upload.total - s.upload.received) :
    Inv sha (writeChunk a bytes s).2 := by
  rw [writeChunk, run_bind, run_get]
  dsimp only
  rw [run_bind, otaWrite_eq (h.opened hopen)]
  by_cases hwritten : a.written = true
  · obtain ⟨s₁, hs₁⟩ : ∃ s₁ : State, s₁ = { s with
        handles := [⟨s.upload.handle, p, s.upload.received + bytes.length⟩],
        log := .flash p s.upload.received bytes :: s.log } := ⟨_, rfl⟩
    rw [if_pos hwritten, ← hs₁]
    dsimp only
    have hhash : s₁.upload.hash = some (accepted s.log).flatten := by
      rw [hs₁]
      exact h.hash
    rw [if_pos rfl, run_bind, hashUpdate_eq hhash]
    have htidy : Tidy s₁ := by
      rw [hs₁]
      refine ⟨fun hc => ?_, fun _ => ⟨_, _, rfl⟩⟩
      rw [hopen] at hc
      cases hc
    have hlog₁ : Lawful (BootRule sha) s₁.log := by
      rw [hs₁]
      exact ⟨trivial, hlog⟩
    by_cases hupdated : a.updated = true
    · rw [if_pos hupdated]
      have hreceived := h.received
      have hsum : (accepted s.log ++ [bytes]).flatten = (accepted s.log).flatten ++ bytes := by
        rw [List.flatten_append, List.flatten_singleton]
      refine ⟨⟨trivial, hlog₁⟩, fun _ => ⟨p, ?_⟩, ?_⟩
      · rw [hs₁]
        refine ⟨h.partition, h.latest, ?_, ?_, ?_, ?_, ?_, fun _ => rfl⟩
        · change s.upload.received + bytes.length = (accepted s.log ++ [bytes]).flatten.length
          rw [hsum, List.length_append, hreceived]
        · have hle := h.fits
          change s.upload.received + bytes.length ≤ s.upload.total
          omega
        · exact congrArg some hsum.symm
        · change flashed s.log ++ [(p, s.upload.received, bytes)] = placed p 0 (accepted s.log ++ [bytes])
          rw [placed_concat, h.flashed, hreceived, Nat.zero_add]
        · intro hc
          change s.upload.isOpen = false at hc
          rw [hopen] at hc
          cases hc
      · intro hc
        rw [hs₁] at hc
        change s.upload.active = false at hc
        rw [hactive] at hc
        cases hc
    · rw [if_neg hupdated]
      exact release_fail htidy hlog₁
  · rw [if_neg hwritten]
    exact release_fail h.tidy hlog

theorem otaBegin_some {h : Nat} (hb : a.begun = some h) :
    otaBegin a (some p) s = (some h, { s with handles := ⟨h, p, 0⟩ :: s.handles }) := by
  unfold otaBegin
  rw [hb]
  rfl

theorem otaBegin_none (hb : a.begun = none) : otaBegin a (some p) s = (none, s) := by
  unfold otaBegin
  rw [hb]
  rfl

/-- The slot is opened, or the upload is over. -/
theorem openSlot_spec (bytes : Bytes) (h : Uploading s p) (hlog : Lawful (BootRule sha) s.log)
    (hactive : s.upload.active = true) (hclosed : s.upload.isOpen = false) :
    (∃ s', openSlot a f bytes s = (false, s') ∧ Inv sha s') ∨
      ∃ s', openSlot a f bytes s = (true, s') ∧ Uploading s' p ∧ s'.log = s.log ∧
        s'.upload.active = true ∧ s'.upload.isOpen = true ∧ s'.upload.total = s.upload.total ∧
        s'.upload.received = s.upload.received := by
  have hover : ∀ {s : State} (reason : String), Tidy s → Lawful (BootRule sha) s.log →
      ∃ s', (release >>= fun _ => fail reason) s = (false, s') ∧ Inv sha s' :=
    fun reason htidy hl => ⟨_, rfl, release_fail htidy hl⟩
  unfold openSlot
  dsimp only
  rw [run_ite]
  split
  · exact .inl (hover _ h.tidy hlog)
  · obtain ⟨hnone, haccepted⟩ := h.closed hclosed
    have hzero : s.upload.received = 0 := by rw [h.received, haccepted]; rfl
    rw [run_bind, run_modify, run_bind, run_get, run_bind]
    dsimp only
    rw [h.partition]
    cases hbegun : a.begun with
    | none =>
      rw [otaBegin_none hbegun]
      refine .inl (hover _ ⟨fun _ => hnone, fun ho => ?_⟩ hlog)
      change s.upload.isOpen = true at ho
      rw [hclosed] at ho
      cases ho
    | some handle =>
      rw [otaBegin_some hbegun]
      obtain ⟨s', hs'⟩ : ∃ s' : State, s' = { s with
          handles := [⟨handle, p, 0⟩],
          upload := { s.upload with
            version := f.version ((bytes.drop (f.headerSize + f.segmentSize)).take f.appSize),
            handle := handle, isOpen := true } } := ⟨_, rfl⟩
      refine .inr ⟨s', ?_, ?_⟩
      · rw [hs']
        simp only [run_bind, run_modify, run_pure, hnone, h.partition]
      · rw [hs']
        refine ⟨⟨h.partition, h.latest, h.received, h.fits, h.hash, h.flashed, nofun, fun _ => ?_⟩, rfl,
          hactive, rfl, rfl, rfl⟩
        change [(⟨handle, p, 0⟩ : Handle)] = [⟨handle, p, s.upload.received⟩]
        rw [hzero]

theorem idMatches_active {u : Upload} {id : Option Bytes} (h : idMatches u id = true) : u.active = true := by
  rw [idMatches, Bool.and_eq_true] at h
  exact h.1

theorem write_inv (h : Inv sha s) (id : Option Bytes) (offset : Nat) (chunk : Option Bytes) :
    Inv sha (write a f id offset chunk s).2 := by
  unfold write
  rw [run_bind, run_get]
  dsimp only
  rw [run_ite]
  split
  · exact h.message _
  next hmatch =>
  have hactive := idMatches_active (by simpa using hmatch)
  obtain ⟨p, hup⟩ := h.active hactive
  cases chunk with
  | none => exact h.message _
  | some bytes =>
    dsimp only
    rw [run_ite]
    split
    · exact h.message _
    next hsize =>
    have hfits : bytes.length ≤ s.upload.total - s.upload.received := by
      rw [sizeSub, if_pos hup.fits] at hsize
      omega
    rw [run_ite]
    split
    · next hopen => exact writeChunk_inv hup h.lawful hactive hopen hfits
    next hclosed =>
    rw [run_ite]
    split
    · exact h.message _
    · rcases openSlot_spec (a := a) (f := f) bytes hup h.lawful hactive (by simpa using hclosed) with
        ⟨s', hrun, hinv⟩ | ⟨s', hrun, hup', hlog, hactive', hopen', htotal, hreceived⟩
      · rw [run_bind_eq hrun]
        exact hinv
      · rw [run_bind_eq hrun]
        refine writeChunk_inv hup' (hlog ▸ h.lawful) hactive' hopen' ?_
        rw [htotal, hreceived]
        exact hfits

theorem finish_inv (h : Inv sha s) (id : Option Bytes) : Inv sha (finish a sha id s).2 := by
  unfold finish
  rw [run_bind, run_get]
  dsimp only
  rw [run_ite]
  split
  · exact h.message _
  next hready =>
  obtain ⟨hmatch, hopen, htotal⟩ : idMatches s.upload id = true ∧ s.upload.isOpen = true ∧
      s.upload.received = s.upload.total := by simpa using hready
  have hactive := idMatches_active hmatch
  obtain ⟨p, hup⟩ := h.active hactive
  obtain ⟨s₁, hs₁⟩ : ∃ s₁ : State, s₁ = { s with upload := { s.upload with hash := none } } := ⟨_, rfl⟩
  have hclosed : ∀ {q : Prop}, s.upload.isOpen = false → q := by
    intro q hc
    rw [hopen] at hc
    cases hc
  have htidy : Tidy s₁ := by
    rw [hs₁]
    exact ⟨hclosed, fun _ => ⟨_, _, hup.opened hopen⟩⟩
  have hlog₁ : Lawful (BootRule sha) s₁.log := by
    rw [hs₁]
    exact h.lawful
  obtain ⟨actual, hactual⟩ : ∃ actual, actual =
      if a.finished then some (sha (accepted s.log).flatten) else none := ⟨_, rfl⟩
  rw [run_bind, hashFinish_eq hup.hash, ← hs₁, ← hactual]
  dsimp only
  rw [run_ite]
  split
  · exact release_fail htidy hlog₁
  next hdigest =>
  -- The digest is the announced one, so the slot holds what was announced.
  have hsha : sha (accepted s.log).flatten = s.upload.expected := by
    rw [hactual] at hdigest
    cases hfinished : a.finished with
    | false => simp [hfinished] at hdigest
    | true =>
      simp only [hfinished, if_true, Option.all_some, decide_eq_true_eq, not_or, not_not] at hdigest
      exact hdigest.2
  have hone : s₁.handles = [⟨s.upload.handle, p, s.upload.received⟩] := by
    rw [hs₁]
    exact hup.opened hopen
  rw [run_bind, otaEnd_eq hone, run_bind, run_modify]
  dsimp only
  rw [run_ite]
  split
  · exact release_fail ⟨fun _ => rfl, nofun⟩ hlog₁
  · rw [run_bind, setBoot_eq]
    have hrule : BootRule sha s.log (.boot s.upload.partition) := by
      obtain ⟨sha256, id, hlatest, hbytes⟩ := hup.latest
      refine ⟨p, s.upload.total, sha256, id, hup.partition, hlatest, ?_, ?_, hup.flashed⟩
      · rw [← htotal, hup.received]
      · rw [hbytes, hsha]
    refine release_inv ⟨fun _ => rfl, nofun⟩ ?_ ?_
    · rw [hs₁]
      exact ⟨hrule, h.lawful⟩
    · intro s₄ h₄
      rw [run_ite]
      split
      · exact h₄.message _
      · exact h₄.note true _

theorem abort_inv (h : Inv sha s) (id : Option Bytes) : Inv sha (abort id s).2 := by
  unfold abort
  rw [run_bind, run_get]
  dsimp only
  rw [run_ite]
  split
  · exact h.message _
  · exact release_inv h.tidy h.lawful fun _ hs => hs.message _

theorem tick_inv (h : Inv sha s) : Inv sha (tick a s).2 := by
  unfold tick
  rw [run_bind, run_get]
  dsimp only
  rw [run_ite]
  split
  · exact release_inv h.tidy h.lawful fun _ hs => hs.message _
  · exact h

theorem call_inv (h : Inv sha s) (c : Call) : Inv sha (call a sha f c s).2 := by
  cases c with
  | start size sha256 => exact start_inv h size sha256
  | write id offset chunk => exact write_inv h id offset chunk
  | finish id => exact finish_inv h id
  | abort id => exact abort_inv h id
  | tick => exact tick_inv h

theorem run_inv {calls : List (Call × Answers)} (h : Inv sha s) : Inv sha (run sha f calls s) := by
  induction calls generalizing s with
  | nil => exact h
  | cons c calls ih => exact ih (call_inv h c.1)

theorem init_inv (sha : Bytes → Bytes) : Inv sha {} := ⟨trivial, nofun, fun _ => ⟨rfl, rfl⟩⟩

/-! ## What is committed -/

/-- A write is refused for its session, offset or size. -/
def Refused (f : Format) (u : Upload) (id : Option Bytes) (offset : Nat) (chunk : Option Bytes) : Prop :=
  idMatches u id = false ∨ chunk = none ∨ offset ≠ u.received ∨ ∃ bytes, chunk = some bytes ∧
    (bytes = [] ∨ bytes.length > chunkMax ∨ bytes.length > sizeSub u.total u.received ∨
      (u.isOpen = false ∧ bytes.length < f.headerSize + f.segmentSize + f.appSize))

theorem write_refused {id : Option Bytes} {offset : Nat} {chunk : Option Bytes}
    (h : Refused f s.upload id offset chunk) : ∃ message, write a f id offset chunk s =
      (false, { s with upload := { s.upload with message := message } }) := by
  unfold write
  rw [run_bind, run_get]
  dsimp only
  rw [run_ite]
  split
  · exact ⟨_, rfl⟩
  next hmatch =>
  cases chunk with
  | none => exact ⟨_, rfl⟩
  | some bytes =>
    dsimp only
    rw [run_ite]
    split
    · exact ⟨_, rfl⟩
    next hsize =>
    have hfirst : s.upload.isOpen = false ∧ bytes.length < f.headerSize + f.segmentSize + f.appSize := by
      rcases h with h | h | h | ⟨bytes', h, hbad⟩
      · simp [h] at hmatch
      · cases h
      · exact absurd (.inl h) hsize
      · cases h
        rcases hbad with rfl | hbad | hbad | hbad
        · exact absurd (.inr (.inl rfl)) hsize
        · exact absurd (.inr (.inr (.inl hbad))) hsize
        · exact absurd (.inr (.inr (.inr hbad))) hsize
        · exact hbad
    rw [run_ite, if_neg (by rw [hfirst.1]; nofun), run_ite, if_pos hfirst.2]
    exact ⟨_, rfl⟩

/-- **Only the announced image is committed**, whatever the calls are and whichever of them fail: a boot
partition is selected only when it is the slot of the last start and the chunks that were accepted
since then were written to it one behind the other and have the announced length and digest. While an
upload is active the counter is what was written and hashed, at most one handle is open, and a write
that is refused changes nothing but the message. -/
theorem ota_commits_announced (sha : Bytes → Bytes) (f : Format) (calls : List (Call × Answers)) :
    let s := run sha f calls {}
    (∀ later before p, s.log = later ++ .boot p :: before →
      ∃ q size sha256 id, p = some q ∧ latest before = some (q, size, sha256, id) ∧
        (accepted before).flatten.length = size ∧
        Token.hexBytes sha256 = some (sha (accepted before).flatten) ∧
        flashed before = placed q 0 (accepted before)) ∧
    (s.upload.active = true →
      ∃ q sha256 id, latest s.log = some (q, s.upload.total, sha256, id) ∧
        flashed s.log = placed q 0 (accepted s.log) ∧
        s.upload.hash = some (accepted s.log).flatten ∧
        s.upload.received = (accepted s.log).flatten.length ∧ s.upload.received ≤ s.upload.total) ∧
    s.handles.length ≤ 1 ∧
    ∀ a id offset chunk, Refused f s.upload id offset chunk →
      ∃ message, write a f id offset chunk s =
        (false, { s with upload := { s.upload with message := message } }) := by
  intro s
  have h : Inv sha s := run_inv (init_inv sha)
  refine ⟨?_, ?_, ?_, fun a id offset chunk hrefused => write_refused hrefused⟩
  · intro later before p hlog
    have hrule : BootRule sha before (.boot p) := Lawful.split (hlog ▸ h.lawful)
    exact hrule
  · intro hactive
    obtain ⟨p, hup⟩ := h.active hactive
    obtain ⟨sha256, id, hlatest, -⟩ := hup.latest
    exact ⟨p, sha256, id, hlatest, hup.flashed, hup.hash, hup.received, hup.fits⟩
  · cases hopen : s.upload.isOpen with
    | false => simp [h.tidy.1 hopen]
    | true =>
      obtain ⟨q, offset, hone⟩ := h.tidy.2 hopen
      simp [hone]

/-- An image of three bytes in two chunks is committed. -/
example :
    let slot : Partition := ⟨65536, 4096, []⟩
    let sha : Bytes → Bytes := fun data => List.replicate 32 (UInt8.ofNat data.length)
    let format : Format :=
      ⟨1, 0, 1, fun _ => 0, fun _ => 0, fun _ => true, fun _ => 0, id, id, 0, 0, 0, [2]⟩
    let answers : Answers := { running := some ⟨0, 4096, []⟩, next := some slot, begun := some 5 }
    let session := some (Token.hexText (List.replicate 16 0))
    (run sha format [(.start 3 (some (Token.hexText (sha [1, 2, 3]))), answers),
      (.write session 0 (some [1, 2]), answers), (.write session 2 (some [3]), answers),
      (.finish session, answers)] {}).log.head? = some (.boot (some slot)) := by
  decide +kernel

end EspCfTunnel.Ota
