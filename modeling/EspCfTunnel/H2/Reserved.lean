import EspCfTunnel.H2.Slots

/-!
# The reserved slots

One of the six slots is meant for the control stream and one for a configuration update. A request
takes its slot in `begin_headers`, though, before its kind is known, and a stream that is refused or
reset keeps its slot until nghttp2 has closed it. This module says exactly when the application is
asked about a control or a configuration request: a slot is free at the beginning of its header block
(`begin_headers`), and nothing takes the stream away before the end of it.

While the block arrives, its stream either waits in a slot (`Waiting`) or is lost (`Lost`); every
event leads from one to the other, or stays.
-/

namespace EspCfTunnel.H2

open EspCfTunnel StateLogic

/-! ## Header blocks -/

/-- The field that an event brings. -/
def Event.field : Event → Option Header
  | .header _ name value => some ⟨name, value⟩
  | _ => none

/-- The header block ends with this event. -/
def Event.ends : Event → Bool
  | .frame f => f.type = .headers
  | .abandon _ => true
  | _ => false

/-- The fields that a trace brings. -/
def Trace.fields (t : Trace) : List Header := t.filterMap fun x => x.1.field

/-- The header block of a request, with all that happens between its beginning and its end. -/
structure Block where
  id : Int
  first : Oracle := {}
  between : Trace
  endStream : Bool := false
  last : Oracle := {}

/-- The beginning of the block. -/
def Block.start (b : Block) : Event := .beginHeaders b.id true

/-- The block up to the frame that completes it. -/
def Block.opening (b : Block) : Trace := (b.start, b.first) :: b.between

/-- The frame that completes the block. -/
def Block.frame (b : Block) : Event := .frame ⟨b.id, .headers, b.endStream⟩

/-- The bytes that `on_header` needs for the fields. -/
def size (fields : List Header) : Nat := (fields.map fun x => x.name.length + x.value.length).sum

/-- The fields are within the limits of `on_header`, and no guarded field comes twice. -/
def Fits (fields : List Header) : Prop :=
  fields.length ≤ headerMax ∧ size fields ≤ headerBytes ∧
    fields.Pairwise fun x y => ¬ (guarded y.name ∧ x.name = y.name)

instance (fields : List Header) : Decidable (Fits fields) :=
  inferInstanceAs (Decidable (_ ∧ _ ∧ _))

/-- The block arrives in the session as a whole, and `nghttp2_submit_rst_stream` succeeds. -/
structure Block.Arrives (b : Block) (w : World) : Prop where
  legal : w.Legal (b.opening ++ [(b.frame, b.last)])
  whole : ∀ x ∈ b.between, x.1.ends = false
  rst : ∀ x ∈ b.opening ++ [(b.frame, b.last)], ∀ ok ∈ x.2.rst, ok = true

/-- The application is asked about the request. -/
def Block.Requested (b : Block) (w : World) (kind : Kind) : Prop :=
  .request ⟨b.id, kind, b.between.fields, b.endStream⟩ ∈
    ((w.run b.opening).handle b.frame b.last).log

/-- The API call resets the stream, which began at the time `start`. -/
def Call.kills (id : Int) (start : Nat) : Call → Bool
  | .reset id' _ => id' = id
  | .tick now => now > start + 15000
  | _ => false

/-- A call that resets the stream has been made. -/
def Killed (id : Int) (start : Nat) (log : List Note) : Prop :=
  ∃ call, .call call ∈ log ∧ call.kills id start = true

/-- Neither is the stream closed, nor is a call made that resets it. -/
def Spared (id : Int) (start : Nat) (w : World) (t : Trace) : Prop :=
  (∀ x ∈ t, ∀ error, x.1 ≠ .closed id error) ∧ ¬ Killed id start (w.notes t)

/-- Nothing takes the stream of the block away while its header block arrives. -/
def Block.Undisturbed (b : Block) (w : World) : Prop :=
  Spared b.id w.h.nowMs (w.step b.start b.first) b.between

/-! ## A stream whose header block arrives -/

/-- The stream waits in slot `i` for the rest of its header block. -/
structure Waiting (id : Int) (start : Nat) (i : Fin slots) (fields : List Header) (h : Session) :
    Prop where
  slot : h.streams i = { id, progressMs := start }
  stream : h.headerStream = id
  headers : h.headers = fields
  used : h.headerUsed = size fields

/-- No stream of the id is left that is not reset. -/
def Lost (id : Int) (h : Session) : Prop := ∀ i, (h.streams i).id = id → (h.streams i).reset = true

section
variable {env : Env} {h h' : Session} {id : Int} {start : Nat} {i : Fin slots} {fields : List Header}

/-- API calls can only reset a waiting stream. -/
theorem Waiting.calm (hwait : Waiting id start i fields h) (hcalm : Calm h h') (hi : Inv env h')
    (hreset : (h'.streams i).reset = false) : Waiting id start i fields h' := by
  obtain ⟨hid, hkind, hdone, hstart⟩ := hcalm.stream i
  obtain ⟨hheaders, hused, hstream⟩ := hcalm.headers
  refine ⟨?_, hstream.trans hwait.stream, hheaders.trans hwait.headers, hused.trans hwait.used⟩
  have hslot := hwait.slot
  rw [hslot] at hid hkind hdone hstart
  have hresponse : (h'.streams i).response = false := by
    by_contra hr
    rw [hi.response i (by simpa using hr)] at hdone
    cases hdone
  have hdeferred : (h'.streams i).deferred = false := by
    by_contra hd
    rw [hi.deferred i (by simpa using hd)] at hresponse
    cases hresponse
  cases hs : h'.streams i with
  | mk id' kind' done' response' reset' deferred' start' =>
    rw [hs] at hid hkind hdone hstart hresponse hdeferred hreset
    dsimp only at hid hkind hdone hstart hresponse hdeferred hreset
    rw [hid, hkind, hdone, hstart, hresponse, hdeferred, hreset]

theorem Lost.calm (hlost : Lost id h) (hcalm : Calm h h') : Lost id h' := by
  intro j hj
  rw [(hcalm.stream j).1] at hj
  exact hcalm.reset j (hlost j hj)

/-- A waiting stream that is reset is lost: no other slot has its id. -/
theorem Waiting.lost (hwait : Waiting id start i fields h) (hid : id ≠ 0) (hcalm : Calm h h')
    (hi : Inv env h') (hreset : (h'.streams i).reset = true) : Lost id h' := by
  intro j hj
  have hsid : (h'.streams i).id = id := by
    rw [(hcalm.stream i).1, hwait.slot]
  rw [← hi.distinct i j (by rw [hsid]; exact hid) (by rw [hsid, hj])]
  exact hreset

end

/-! ## API calls while the block arrives -/

/-- The stream in slot `i` is reset exactly if a call has been made that resets it. -/
structure Marked (id : Int) (start : Nat) (i : Fin slots) (c : Ctx) : Prop where
  rst : ∀ ok ∈ c.oracle.rst, ok = true
  killed : (c.h.streams i).reset = true ↔ Killed id start c.log

section
variable {env : Env} {h₀ : Session} {id : Int} {start : Nat} {i : Fin slots}

theorem killed_append {log log' : List Note} :
    Killed id start (log ++ log') ↔ Killed id start log ∨ Killed id start log' := by
  simp only [Killed, List.mem_append, or_and_right, exists_or]

theorem killed_singleton {n : Note} :
    Killed id start [n] ↔ ∃ call, n = .call call ∧ call.kills id start = true := by
  simp only [Killed, List.mem_singleton, eq_comm]

theorem note_marked {n : Note} (hn : ∀ call, n = .call call → call.kills id start = false) :
    Triple (Marked id start i) (note n) fun _ => Marked id start i := by
  intro c hc
  refine ⟨hc.rst, hc.killed.trans ⟨fun hk => killed_append.2 (Or.inl hk), fun hk => ?_⟩⟩
  rcases killed_append.1 hk with hk | hk
  · exact hk
  · obtain ⟨call, hcall, hkill⟩ := killed_singleton.1 hk
    rw [hn call hcall] at hkill
    cases hkill

theorem nghttp2_marked : Triple (Marked id start i) nghttp2 fun _ => Marked id start i :=
  fun _ hc => ⟨hc.rst, hc.killed⟩

theorem modifySession_marked {f : Session → Session}
    (hf : ∀ h, ((f h).streams i).reset = (h.streams i).reset) :
    Triple (Marked id start i) (modifySession f) fun _ => Marked id start i :=
  fun c hc => ⟨hc.rst, (iff_of_eq (congrArg (· = true) (hf c.h))).trans hc.killed⟩

/-- A change of a slot that leaves the reset mark as it is. -/
theorem setStream_reset {h : Session} {j : Fin slots} {s : Stream}
    (hs : s.reset = (h.streams j).reset) :
    ((h.setStream j s).streams i).reset = (h.streams i).reset := by
  by_cases hij : i = j
  · subst hij
    rw [setStream_self, hs]
  · rw [setStream_of_ne h hij]

/-- `nghttp2_submit_rst_stream` succeeds when no failure is foretold. -/
theorem submitRst_run {c : Ctx} (hrst : ∀ ok ∈ c.oracle.rst, ok = true) :
    ∃ c', submitRst c = (true, c') ∧ c'.h = c.h ∧ c'.log = c.log ∧ ∀ ok ∈ c'.oracle.rst, ok = true := by
  have hok : c.oracle.rst.headD true = true := by
    cases hr : c.oracle.rst with
    | nil => rfl
    | cons ok rest => exact hrst ok (by rw [hr]; exact List.mem_cons_self)
  refine ⟨{ c with oracle := { c.oracle with rst := c.oracle.rst.tail } }, ?_, rfl, rfl,
    fun ok hmem => hrst ok (List.mem_of_mem_tail hmem)⟩
  exact Prod.ext hok rfl

theorem respond_marked (id' : Int) (status : Nat) (headers : List Header) (origin : Bool) :
    Triple (Marked id start i) (respond id' status headers origin) fun _ => Marked id start i := by
  refine Triple.bind (note_marked fun call hcall => by cases hcall; rfl) fun _ => ?_
  refine Triple.ite (fun _ => Triple.ret fun _ h => h) fun _ => Triple.get_bind fun c hc => ?_
  dsimp only
  cases c.h.findStream id' with
  | none => exact Triple.ret fun _ h => h.2
  | some j =>
    refine Triple.ite (fun _ => Triple.ret fun _ h => h.2) fun _ => ?_
    cases Headers.headersEncode headers Headers.wireMax with
    | error rc => exact Triple.ret fun _ h => h.2
    | ok wire =>
      refine Triple.ite (fun _ => Triple.ret fun _ h => h.2) fun _ => ?_
      refine Triple.bind (nghttp2_marked.pre fun _ h => h.2) fun ok => ?_
      refine Triple.ite (fun _ => Triple.ret fun _ h => h) fun _ => ?_
      refine Triple.bind (Q := fun _ => Marked id start i) (fun c hc => ⟨hc.rst, hc.killed⟩) fun _ => ?_
      refine Triple.bind (note_marked fun call hcall => by cases hcall) fun _ => ?_
      exact Triple.bind (modifySession_marked fun h => setStream_reset rfl) fun _ =>
        Triple.ret fun _ h => h

theorem resume_marked (id' : Int) :
    Triple (Marked id start i) (resume id') fun _ => Marked id start i := by
  refine Triple.bind (note_marked fun call hcall => by cases hcall; rfl) fun _ => ?_
  refine Triple.get_bind fun c hc => ?_
  dsimp only
  cases c.h.findStream id' with
  | none => exact Triple.ret fun _ h => h.2
  | some j =>
    refine Triple.ite (fun _ => Triple.ret fun _ h => h.2) fun _ => ?_
    refine Triple.ite (fun _ => Triple.ret fun _ h => h.2) fun _ => ?_
    refine Triple.bind (nghttp2_marked.pre fun _ h => h.2) fun ok => ?_
    refine Triple.ite (fun _ => Triple.ret fun _ h => h) fun _ => ?_
    exact Triple.bind (modifySession_marked fun h => setStream_reset rfl) fun _ =>
      Triple.ret fun _ h => h

theorem shutdown_marked : Triple (Marked id start i) shutdown fun _ => Marked id start i := by
  refine Triple.bind (note_marked fun call hcall => by cases hcall; rfl) fun _ => ?_
  refine Triple.bind (modifySession_marked fun h => rfl) fun _ => ?_
  refine Triple.bind nghttp2_marked fun ok => ?_
  exact Triple.ite (fun _ => Triple.ret fun _ h => h) fun _ => Triple.ret fun _ h => h

theorem sent_marked (n : Nat) : Triple (Marked id start i) (sent n) fun _ => Marked id start i := by
  refine Triple.bind (note_marked fun call hcall => by cases hcall; rfl) fun _ => ?_
  refine Triple.get_bind fun c hc => Triple.pre ?_ fun _ h => h.2
  refine Triple.ite (fun _ => Triple.ret fun _ h => h) fun _ => ?_
  exact Triple.bind (modifySession_marked fun h => rfl) fun _ => Triple.ret fun _ h => h

/-- The note that a stream was reset is no call. -/
theorem killed_reset {log : List Note} {id' : Int} :
    Killed id start (log ++ [.reset id']) ↔ Killed id start log := by
  rw [killed_append, killed_singleton, or_iff_left]
  rintro ⟨call, hcall, -⟩
  cases hcall

/-- `cf_h2_reset` marks the stream that it finds, and no other. -/
theorem reset_run (id : Int) (start : Nat) {c : Ctx} (hrst : ∀ ok ∈ c.oracle.rst, ok = true)
    (id' : Int) (error : Nat) :
    (∀ ok ∈ (reset id' error c).2.oracle.rst, ok = true) ∧
      (∀ n ∈ c.log, n ∈ (reset id' error c).2.log) ∧
      (Killed id start (reset id' error c).2.log ↔ Killed id start c.log ∨ id' = id) ∧
      ∀ j, ((reset id' error c).2.h.streams j).reset = true ↔
        (c.h.streams j).reset = true ∨ c.h.findStream id' = some j := by
  obtain ⟨c₁, hc₁⟩ : ∃ c₁ : Ctx, c₁ = { c with log := c.log ++ [.call (.reset id' error)] } := ⟨_, rfl⟩
  have hh : c₁.h = c.h := by rw [hc₁]
  have hrst₁ : ∀ ok ∈ c₁.oracle.rst, ok = true := by rwa [hc₁]
  have hlog : ∀ n ∈ c.log, n ∈ c₁.log := by
    rw [hc₁]
    exact fun n hn => List.mem_append_left _ hn
  have hkilled : Killed id start c₁.log ↔ Killed id start c.log ∨ id' = id := by
    rw [hc₁, killed_append, killed_singleton]
    simp [Call.kills]
  unfold reset
  rw [run_bind_eq (show note _ c = ((), c₁) by rw [hc₁]; rfl), run_bind, run_get]
  dsimp only
  by_cases hreset : (c₁.h.findStream id').any (fun i => (c₁.h.streams i).reset) = true
  · rw [if_pos hreset]
    refine ⟨hrst₁, hlog, hkilled, fun j => ⟨fun hj => Or.inl (hh ▸ hj), ?_⟩⟩
    rw [← hh]
    rintro (hj | hj)
    · exact hj
    · simpa [hj] using hreset
  obtain ⟨c₂, hrun, hh₂, hlog₂, hrst₂⟩ := submitRst_run hrst₁
  rw [if_neg hreset, run_bind_eq hrun, if_neg (by simp)]
  rw [hh] at hh₂ ⊢
  rw [← hlog₂] at hlog hkilled
  cases hs : c.h.findStream id' with
  | none =>
    refine ⟨hrst₂, hlog, hkilled, fun j => ?_⟩
    change (c₂.h.streams j).reset = true ↔ _
    rw [hh₂]
    simp
  | some k =>
    refine ⟨hrst₂, fun n hn => List.mem_append_left _ (hlog n hn), killed_reset.trans hkilled,
      fun j => ?_⟩
    change ((c₂.h.setStream k { c₂.h.streams k with reset := true }).streams j).reset = true ↔ _
    rw [hh₂]
    by_cases hjk : j = k
    · subst hjk
      simp
    · rw [setStream_of_ne _ hjk]
      simp [Ne.symm hjk]

/-! A stream waits in slot `i` of the session `h₀`, which is that at the beginning of an event. -/

/-- The invariant of an event while the stream waits. -/
structure Tracked (env : Env) (h₀ : Session) (id : Int) (start : Nat) (i : Fin slots) (c : Ctx) :
    Prop where
  good : Good env h₀ c
  marked : Marked id start i c

/-- The invariant of a `cf_h2_tick` that comes too late for the stream; from the time on that `φ`
holds, it is reset. -/
structure Late (env : Env) (h₀ : Session) (now : Nat) (i : Fin slots) (φ : Prop) (c : Ctx) : Prop where
  good : Good env h₀ c
  rst : ∀ ok ∈ c.oracle.rst, ok = true
  noted : .call (.tick now) ∈ c.log
  reset : φ → (c.h.streams i).reset = true

theorem Good.waiting {c : Ctx} (hc : Good env h₀ c)
    (hslot : h₀.streams i = { id, progressMs := start }) :
    (c.h.streams i).id = id ∧ (c.h.streams i).headersDone = false ∧
      (c.h.streams i).progressMs = start := by
  obtain ⟨h1, -, h3, h4⟩ := hc.calm.stream i
  rw [h1, h3, h4, hslot]
  exact ⟨rfl, rfl, rfl⟩

variable (hid : id ≠ 0) (hslot : h₀.streams i = { id, progressMs := start })
include hid hslot

/-- The stream is found in its slot, and no other is found there. -/
theorem Good.findStream_iff {c : Ctx} (hc : Good env h₀ c) (id' : Int) :
    c.h.findStream id' = some i ↔ id' = id := by
  obtain ⟨hsid, -⟩ := hc.waiting hslot
  constructor
  · intro hf
    exact (findStream_eq_some hf).symm.trans hsid
  · rintro rfl
    refine Table.lookup_eq_some (by simpa using hsid) fun j hj => ?_
    refine (hc.inv.distinct i j (by rw [hsid]; exact hid) ?_).symm
    rw [hsid]
    exact (of_decide_eq_true hj).symm

theorem reset_tracked {id' : Int} (hid' : id' ≠ 0) (error : Nat) :
    Triple (Tracked env h₀ id start i) (reset id' error) fun _ => Tracked env h₀ id start i := by
  intro c hc
  obtain ⟨hrst, -, hkilled, hreset⟩ := reset_run id start hc.marked.rst id' error
  refine ⟨reset_good hid' error c hc.good, hrst, ?_⟩
  rw [hkilled, hreset, hc.marked.killed, hc.good.findStream_iff hid hslot]

theorem tickSlots_tracked (now : Nat) (l : List (Fin slots)) :
    Triple (Tracked env h₀ id start i) (tickSlots now l) fun _ => Tracked env h₀ id start i := by
  induction l with
  | nil => exact Triple.ret fun _ h => h
  | cons j l ih =>
    refine Triple.bind (Triple.get_bind fun c hc => ?_) fun _ => ih
    refine Triple.ite (fun hidle => ?_) fun _ => Triple.ret fun _ h => h.2
    have hid' : (c.h.streams j).id ≠ 0 := by
      simp only [Stream.idle, decide_eq_true_eq] at hidle
      exact hidle.1
    exact Triple.bind ((reset_tracked hid hslot hid' 8).pre fun _ h => h.2) fun _ =>
      Triple.ret fun _ h => h

theorem tickSlot_late {now : Nat} (hnow : now > start + 15000) (φ : Prop) (j : Fin slots) :
    Triple (Late env h₀ now i φ) (tickSlot now j) fun _ => Late env h₀ now i (φ ∨ j = i) := by
  intro c hc
  unfold tickSlot
  rw [run_bind, run_get]
  dsimp only
  by_cases hidle : (c.h.streams j).idle now = true
  · rw [if_pos hidle]
    have hid' : (c.h.streams j).id ≠ 0 := by
      simp only [Stream.idle, decide_eq_true_eq] at hidle
      exact hidle.1
    obtain ⟨hrst, hlog, -, hreset⟩ :=
      reset_run id start hc.rst (c.h.streams j).id 8
    refine ⟨reset_good hid' 8 c hc.good, hrst, ?_, fun hφ => ?_⟩
    · rw [run_bind, run_pure]
      exact hlog _ hc.noted
    · rw [run_bind, run_pure, hreset]
      refine hφ.imp hc.reset fun hj => ?_
      rw [hc.good.findStream_iff hid hslot, hj]
      exact (hc.good.waiting hslot).1
  · rw [if_neg hidle]
    refine ⟨hc.good, hc.rst, hc.noted, fun hφ => ?_⟩
    rcases hφ with hφ | rfl
    · exact hc.reset hφ
    -- A stream that waits for so long is idle, unless it is reset.
    · obtain ⟨hsid, hdone, hstart⟩ := hc.good.waiting hslot
      by_contra hreset
      refine hidle ?_
      simp only [Stream.idle, decide_eq_true_eq]
      refine ⟨by rw [hsid]; exact hid, by simpa using hreset, Or.inl hdone, ?_⟩
      rw [hstart]
      omega

theorem tickSlots_late {now : Nat} (hnow : now > start + 15000) (φ : Prop) (l : List (Fin slots)) :
    Triple (Late env h₀ now i φ) (tickSlots now l) fun _ => Late env h₀ now i (φ ∨ i ∈ l) := by
  induction l generalizing φ with
  | nil =>
    exact Triple.ret fun c hc => ⟨hc.good, hc.rst, hc.noted, fun hφ => hc.reset (by simpa using hφ)⟩
  | cons j l ih =>
    refine Triple.bind (tickSlot_late hid hslot hnow φ j) fun _ => (ih _).post fun _ c hc => ?_
    refine ⟨hc.good, hc.rst, hc.noted, fun hφ => hc.reset ?_⟩
    rw [List.mem_cons] at hφ
    rcases hφ with hφ | rfl | hφ
    · exact Or.inl (Or.inl hφ)
    · exact Or.inl (Or.inr rfl)
    · exact Or.inr hφ

theorem tick_tracked (now : Nat) :
    Triple (Tracked env h₀ id start i) (tick now) fun _ => Tracked env h₀ id start i := by
  have hclock : ∀ h : Session, ({ h with nowMs := now } : Session).streams = h.streams := fun _ => rfl
  have hgood : Triple (Good env h₀) (modifySession fun h => { h with nowMs := now }) fun _ =>
      Good env h₀ :=
    modifySession_good hclock (fun _ => rfl) (fun _ => rfl) fun _ => ⟨rfl, rfl, rfl⟩
  by_cases hnow : now > start + 15000
  · have hnote : Triple (Tracked env h₀ id start i) (note (.call (.tick now))) fun _ =>
        Late env h₀ now i False :=
      fun c hc => ⟨note_good _ c hc.good, hc.marked.rst, List.mem_append_right _
        (List.mem_singleton.2 rfl), False.elim⟩
    refine Triple.bind hnote fun _ => ?_
    refine Triple.bind (Q := fun _ => Late env h₀ now i False) (fun c hc => ?_) fun _ => ?_
    · exact ⟨hgood c hc.good, hc.rst, hc.noted, False.elim⟩
    refine (tickSlots_late hid hslot hnow False _).post fun _ c hc => ⟨hc.good, hc.rst, ?_⟩
    refine iff_of_true (hc.reset (Or.inr (List.mem_finRange i))) ⟨_, hc.noted, ?_⟩
    simpa [Call.kills] using hnow
  · have hnote : Triple (Tracked env h₀ id start i) (note (.call (.tick now))) fun _ =>
        Tracked env h₀ id start i := by
      refine fun c hc => ⟨note_good _ c hc.good, note_marked (fun call hcall => ?_) c hc.marked⟩
      cases hcall
      simpa [Call.kills] using hnow
    refine Triple.bind hnote fun _ => ?_
    refine Triple.bind (Q := fun _ => Tracked env h₀ id start i) (fun c hc => ?_) fun _ =>
      tickSlots_tracked hid hslot now _
    exact ⟨hgood c hc.good, hc.marked.rst, hc.marked.killed⟩

theorem Call.tracked {call : Call} (hv : call.Valid) :
    Triple (Tracked env h₀ id start i) call.run fun _ => Tracked env h₀ id start i := by
  have hboth : Triple (Marked id start i) call.run (fun _ => Marked id start i) →
      Triple (Tracked env h₀ id start i) call.run fun _ => Tracked env h₀ id start i :=
    fun hmarked c hc => ⟨Call.good hv c hc.good, hmarked c hc.marked⟩
  cases call with
  | reset id' error =>
    exact Triple.bind (reset_tracked hid hslot hv error) fun _ => Triple.ret fun _ h => h
  | respond id' status headers origin =>
    exact hboth (Triple.bind (respond_marked id' status headers origin) fun _ => Triple.ret fun _ h => h)
  | resume id' => exact hboth (Triple.bind (resume_marked id') fun _ => Triple.ret fun _ h => h)
  | shutdown => exact hboth (Triple.bind shutdown_marked fun _ => Triple.ret fun _ h => h)
  | sent n => exact hboth (Triple.bind (sent_marked n) fun _ => Triple.ret fun _ h => h)
  | tick now => exact tick_tracked hid hslot now

/-- A callback resets the stream exactly if it makes a call that does. -/
theorem callback_tracked {n : Note} (hn : ∀ call, n ≠ .call call) :
    Triple (Tracked env h₀ id start i) (callback n) fun _ => Tracked env h₀ id start i := by
  refine callback_triple (fun c hc => ⟨note_good n c hc.good, ?_⟩)
    (fun _ c hc => ⟨note_good _ c hc.good, ?_⟩) (fun c hc => ?_) fun c hc call hcall => ?_
  · exact note_marked (fun call hcall => absurd hcall (hn call)) c hc.marked
  · exact note_marked (fun call hcall => by cases hcall) c hc.marked
  · exact ⟨hc.good.replies, hc.marked.rst, hc.marked.killed⟩
  · exact Call.tracked hid hslot (hc.good.reply call hcall)

end

/-! ## Events while the block arrives -/

/-- The sessions differ in slot `j` at most, which is emptied or keeps its id and its reset mark. -/
structure Elsewhere (j : Fin slots) (h h' : Session) : Prop where
  streams : ∀ k, k ≠ j → h'.streams k = h.streams k
  slot : (h'.streams j).id = 0 ∨
    (h'.streams j).id = (h.streams j).id ∧ (h'.streams j).reset = (h.streams j).reset
  headers : h'.headers = h.headers ∧ h'.headerUsed = h.headerUsed ∧ h'.headerStream = h.headerStream

/-- What becomes of the stream. -/
structure Fate (id : Int) (start : Nat) (i : Fin slots) (fields : List Header) (spared : Prop)
    (h : Session) : Prop where
  waiting : spared → Waiting id start i fields h
  lost : ¬ spared → Lost id h

section
variable {env : Env} {h h' h₀ : Session} {id : Int} {start : Nat} {i j : Fin slots}
  {fields : List Header} {spared : Prop}

theorem Elsewhere.refl (j : Fin slots) (h : Session) : Elsewhere j h h :=
  ⟨fun _ _ => rfl, Or.inr ⟨rfl, rfl⟩, rfl, rfl, rfl⟩

theorem Elsewhere.setStream (h : Session) {s : Stream}
    (hs : s.id = (h.streams j).id ∧ s.reset = (h.streams j).reset) : Elsewhere j h (h.setStream j s) :=
  ⟨fun _ hk => setStream_of_ne h hk s, Or.inr (by rwa [setStream_self]), rfl, rfl, rfl⟩

theorem Waiting.elsewhere (hwait : Waiting id start i fields h) (he : Elsewhere j h h') (hij : i ≠ j) :
    Waiting id start i fields h' := by
  obtain ⟨hheaders, hused, hstream⟩ := he.headers
  exact ⟨(he.streams i hij).trans hwait.slot, hstream.trans hwait.stream,
    hheaders.trans hwait.headers, hused.trans hwait.used⟩

theorem Lost.elsewhere (hlost : Lost id h) (he : Elsewhere j h h') (hid : id ≠ 0) : Lost id h' := by
  intro k hk
  by_cases hkj : k = j
  · subst hkj
    rcases he.slot with h0 | ⟨hsid, hreset⟩
    · exact absurd (hk.symm.trans h0) hid
    · rw [hreset]
      exact hlost k (hsid.symm.trans hk)
  · rw [he.streams k hkj] at hk ⊢
    exact hlost k hk

theorem Fate.elsewhere (hfate : Fate id start i fields spared h) (he : Elsewhere j h h') (hij : i ≠ j)
    (hid : id ≠ 0) : Fate id start i fields spared h' :=
  ⟨fun hs => (hfate.waiting hs).elsewhere he hij, fun hs => (hfate.lost hs).elsewhere he hid⟩

/-- After API calls the log tells what has become of the stream. -/
theorem Tracked.fate (hwait : Waiting id start i fields h₀) (hid : id ≠ 0) {c : Ctx}
    (hc : Tracked env h₀ id start i c) : Fate id start i fields (¬ Killed id start c.log) c.h := by
  refine ⟨fun hs => ?_, fun hk => ?_⟩
  · rw [← hc.marked.killed, Bool.not_eq_true] at hs
    exact hwait.calm hc.good.calm hc.good.inv hs
  · rw [not_not, ← hc.marked.killed] at hk
    exact hwait.lost hid hc.good.calm hc.good.inv hk

/-- `closed_stream` empties the slot after its callback. -/
theorem closedStream_run {c : Ctx} (hs : c.h.findStream id = some j) (error : Nat) :
    ∃ h', (closedStream id error c).2 = { (callback (.closed id error) c).2 with h := h' } ∧
      Elsewhere j (callback (.closed id error) c).2.h h' ∧ (h'.streams j).id = 0 := by
  unfold closedStream
  rw [run_bind, run_get]
  dsimp only
  rw [hs]
  obtain ⟨reply, c₁, hrun⟩ : ∃ reply c₁, callback (.closed id error) c = (reply, c₁) := ⟨_, _, rfl⟩
  dsimp only
  rw [run_bind_eq hrun, hrun]
  refine ⟨_, rfl, ⟨fun k hk => ?_, Or.inl ?_, rfl, rfl, rfl⟩, ?_⟩
  · dsimp only
    rw [setStream_of_ne _ hk]
  all_goals
    dsimp only
    rw [setStream_self]

/-- `read_response` changes the slot before and after its callback. -/
theorem readResponse_run {c c₁ : Ctx} (hs : c.h.findStream id = some j)
    (hreset : (c.h.streams j).reset = false)
    (hc₁ : c₁ = { c with h := c.h.setStream j { c.h.streams j with deferred := false } })
    (capacity : Nat) :
    ∃ h', (readResponse id capacity c).2 =
        { (callback (.read id (min capacity chunk)) c₁).2 with h := h' } ∧
      Elsewhere j (callback (.read id (min capacity chunk)) c₁).2.h h' := by
  unfold readResponse
  rw [run_bind, run_get]
  dsimp only
  rw [hs]
  dsimp only
  rw [if_neg (by simp [hreset]), run_bind_eq (show modifySession _ c = ((), c₁) by rw [hc₁]; rfl)]
  obtain ⟨reply, c₂, hrun⟩ : ∃ reply c₂, callback (.read id (min capacity chunk)) c₁ = (reply, c₂) :=
    ⟨_, _, rfl⟩
  rw [run_bind_eq hrun, hrun]
  split
  · exact ⟨_, rfl, .setStream c₂.h ⟨rfl, rfl⟩⟩
  · split
    · exact ⟨_, rfl, .refl j c₂.h⟩
    · split
      · exact ⟨_, rfl, .setStream c₂.h ⟨rfl, rfl⟩⟩
      · exact ⟨_, rfl, .refl j c₂.h⟩

theorem Fits.of_append {fields' : List Header} (hfits : Fits (fields ++ fields')) : Fits fields := by
  obtain ⟨hcount, hsize, hpair⟩ := hfits
  rw [List.length_append] at hcount
  rw [size, List.map_append, List.sum_append] at hsize
  exact ⟨by omega, by rw [size]; omega, (List.pairwise_append.1 hpair).1⟩

/-- A field is taken by `on_header` exactly if it fits with those before it. -/
theorem Fits.rejects_iff (hfits : Fits fields) (hheaders : h.headers = fields)
    (hused : h.headerUsed = size fields) (name value : Bytes) :
    h.rejects name value = false ↔ Fits (fields ++ [⟨name, value⟩]) := by
  obtain ⟨hcount, hsize, hpair⟩ := hfits
  have hnew : size (fields ++ [⟨name, value⟩]) = size fields + (name.length + value.length) := by
    rw [size, size, List.map_append, List.sum_append]
    simp
  rw [Fits, List.length_append, List.length_singleton, hnew, List.pairwise_append]
  simp only [Session.rejects, decide_eq_false_iff_not, hheaders, hused, not_or, hpair, true_and,
    List.pairwise_singleton, List.forall_mem_singleton]
  constructor
  · rintro ⟨hfull, hname, hvalue, hambiguous⟩
    exact ⟨by omega, by omega, fun x hx h => hambiguous ⟨h.1, x, hx, h.2⟩⟩
  · rintro ⟨hfull, hroom, hfresh⟩
    refine ⟨by omega, by omega, by omega, ?_⟩
    rintro ⟨hguarded, x, hx, heq⟩
    exact hfresh x hx ⟨hguarded, heq⟩

theorem not_killed_nil : ¬ Killed id start [] := by
  rintro ⟨call, hmem, -⟩
  cases hmem

/-- An event that has nothing to do with streams and makes no callback. -/
theorem Waiting.quiet (hwait : Waiting id start i fields h) (hstreams : h'.streams = h.streams)
    (hheaders : h'.headers = h.headers ∧ h'.headerUsed = h.headerUsed ∧
      h'.headerStream = h.headerStream) (hspared : spared) : Fate id start i fields spared h' := by
  obtain ⟨hh, hused, hstream⟩ := hheaders
  refine ⟨fun _ => ⟨?_, hstream.trans hwait.stream, hh.trans hwait.headers, hused.trans hwait.used⟩,
    fun hn => absurd hspared hn⟩
  rw [hstreams]
  exact hwait.slot

theorem Waiting.tracked (hwait : Waiting id start i fields h) (hi : Inv env h) {o : Oracle}
    (hv : ∀ reply ∈ o.replies, ∀ call ∈ reply.calls, call.Valid) (hrst : ∀ ok ∈ o.rst, ok = true) :
    Tracked env h id start i ⟨h, o, env.responses, []⟩ := by
  refine ⟨hi.good o hv [], hrst, iff_of_false ?_ not_killed_nil⟩
  rw [hwait.slot]
  exact Bool.false_ne_true

/-- The closing of a stream while another one waits. -/
theorem Waiting.closed (hwait : Waiting id start i fields h) (hid : id ≠ 0) {c : Ctx} (hh : c.h = h)
    (hc : Tracked env h id start i c) (hlog : c.log = []) (id' : Int) (error : Nat) :
    Fate id start i fields (id' ≠ id ∧ ¬ Killed id start (closedStream id' error c).2.log)
      (closedStream id' error c).2.h := by
  cases hs : c.h.findStream id' with
  | none =>
    have hne : id' ≠ id := by
      intro heq
      rw [(hc.good.findStream_iff hid hwait.slot id').2 heq] at hs
      cases hs
    have hrun : (closedStream id' error c).2 = c := by
      unfold closedStream
      rw [run_bind, run_get]
      dsimp only
      rw [hs]
      rfl
    rw [hrun, hh, hlog]
    exact hwait.quiet rfl ⟨rfl, rfl, rfl⟩ ⟨hne, not_killed_nil⟩
  | some j =>
    obtain ⟨h', hrun, helse, hempty⟩ := closedStream_run hs error
    have hcall := callback_tracked hid hwait.slot (n := .closed id' error) (fun _ => by simp) c hc
    rw [hrun]
    by_cases hne : id' = id
    · refine ⟨fun hsp => absurd hne hsp.1, fun _ k hk => ?_⟩
      have hj : (callback (.closed id' error) c).2.h.findStream id' = some i :=
        (hcall.good.findStream_iff hid hwait.slot id').2 hne
      have hij : i = j := by
        rw [(hc.good.findStream_iff hid hwait.slot id').2 hne] at hs
        exact Option.some.inj hs
      have hkj : k ≠ j := by
        rintro rfl
        exact hid (hk.symm.trans hempty)
      dsimp only at hk
      rw [helse.streams k hkj] at hk
      have hsid := findStream_eq_some hj
      refine absurd (hcall.good.inv.distinct i k ?_ ?_).symm (hij ▸ hkj)
      · rw [hsid, hne]
        exact hid
      · rw [hsid, hk, hne]
    · have hij : i ≠ j := by
        rintro rfl
        exact hne ((hc.good.findStream_iff hid hwait.slot id').1 hs)
      have hfate := (Tracked.fate hwait hid hcall).elsewhere helse hij hid
      exact ⟨fun hsp => hfate.waiting hsp.2, fun hsp => hfate.lost fun hk => hsp ⟨hne, hk⟩⟩

/-- Data is asked for on another stream: the one that waits has no response. -/
theorem Waiting.read (hwait : Waiting id start i fields h) (hid : id ≠ 0) {c : Ctx} (hh : c.h = h)
    (hc : Tracked env h id start i c) (hlog : c.log = []) {id' : Int} (hmem : id' ∈ c.responses)
    (capacity : Nat) :
    Fate id start i fields (¬ Killed id start (readResponse id' capacity c).2.log)
      (readResponse id' capacity c).2.h := by
  have hquiet : Fate id start i fields (¬ Killed id start c.log) c.h := by
    rw [hh, hlog]
    exact hwait.quiet rfl ⟨rfl, rfl, rfl⟩ not_killed_nil
  cases hs : c.h.findStream id' with
  | none =>
    have hrun : (readResponse id' capacity c).2 = c := by
      unfold readResponse
      rw [run_bind, run_get]
      dsimp only
      rw [hs]
      rfl
    rw [hrun]
    exact hquiet
  | some j =>
    have hsid := findStream_eq_some hs
    have hij : i ≠ j := by
      rintro rfl
      have hresponse := hc.good.inv.submitted i (hsid ▸ hmem)
      rw [hh, hwait.slot] at hresponse
      cases hresponse
    have hid' : id' ≠ 0 := fun h0 => hc.good.inv.zero (h0 ▸ hc.good.inv.responses id' hmem)
    cases hreset : (c.h.streams j).reset with
    | true =>
      have hrun : (readResponse id' capacity c).2 = c := by
        unfold readResponse
        rw [run_bind, run_get]
        dsimp only
        rw [hs]
        dsimp only
        rw [if_pos hreset]
        rfl
      rw [hrun]
      exact hquiet
    | false =>
      obtain ⟨c₁, hc₁⟩ : ∃ c₁ : Ctx, c₁ = { c with
        h := c.h.setStream j { c.h.streams j with deferred := false } } := ⟨_, rfl⟩
      obtain ⟨h', hrun, helse⟩ := readResponse_run hs hreset hc₁ capacity
      have hwait₁ : Waiting id start i fields c₁.h := by
        rw [hc₁, hh]
        exact hwait.elsewhere (.setStream h ⟨rfl, rfl⟩) hij
      have htracked : Tracked env c₁.h id start i c₁ := by
        refine ⟨?_, ?_, ?_⟩
        · rw [hc₁]
          exact hc.good.restart (hc.good.inv.undefer (hsid ▸ hid'))
        · rw [hc₁]
          exact hc.marked.rst
        · rw [hwait₁.slot, hc₁, hlog]
          exact iff_of_false Bool.false_ne_true not_killed_nil
      have hcall := callback_tracked hid hwait₁.slot (n := .read id' (min capacity chunk))
        (fun _ => by simp) c₁ htracked
      rw [hrun]
      exact (Tracked.fate hwait₁ hid hcall).elsewhere helse hij hid

/-- Every event of the header block but its last keeps a stream waiting that is spared. -/
theorem Waiting.step {w : World} {e : Event} {o : Oracle} (hi : Inv w.env w.h)
    (hblock : w.env.block = some id) (hwait : Waiting id start i fields w.h) (hlegal : w.env.Legal e)
    (hv : Valid e o) (hrst : ∀ ok ∈ o.rst, ok = true) (hends : e.ends = false)
    (hfits : Fits (fields ++ e.field.toList)) :
    Fate id start i (fields ++ e.field.toList)
      ((∀ error, e ≠ .closed id error) ∧ ¬ Killed id start (w.handle e o).log) (w.step e o).h := by
  have hid : id ≠ 0 := fun h0 => hi.zero (h0 ▸ hi.current id hblock)
  have hc := hwait.tracked hi hv.2 hrst
  have hopen : w.env.block ≠ none := by
    rw [hblock]
    exact Option.some_ne_none id
  have hnone : e.field = none → fields ++ e.field.toList = fields := by
    intro hn
    rw [hn]
    exact List.append_nil fields
  cases e with
  | clock now | fault code error | output bytes | protocolError code | invalidFrame type code =>
    rw [hnone rfl]
    exact hwait.quiet rfl ⟨rfl, rfl, rfl⟩ ⟨fun _ => by simp, not_killed_nil⟩
  | beginHeaders id' request => exact absurd hlegal.1 hopen
  | header id' name value =>
    obtain rfl : id = id' := Option.some.inj (hblock.symm.trans hlegal)
    have hrejects : w.h.rejects name value = false :=
      (hfits.of_append.rejects_iff hwait.headers hwait.used name value).2 hfits
    have hrun : onHeader id name value ⟨w.h, o, w.env.responses, []⟩ = (.ok, ⟨{ w.h with
        headers := w.h.headers ++ [⟨name, value⟩]
        headerUsed := w.h.headerUsed + name.length + value.length }, o, w.env.responses, []⟩) := by
      unfold onHeader
      rw [run_bind, run_get]
      dsimp only
      rw [if_neg (not_not.2 hwait.stream), if_neg (by rw [hrejects]; simp)]
      rfl
    have hhandle : w.handle (.header id name value) o = (onHeader id name value ⟨w.h, o, w.env.responses,
      []⟩).2 := rfl
    rw [World.step, hhandle, hrun]
    refine ⟨fun _ => ⟨hwait.slot, hwait.stream, ?_, ?_⟩, fun hn => absurd ⟨fun _ => ?_, ?_⟩ hn⟩
    · change w.h.headers ++ _ = _
      rw [hwait.headers]
      rfl
    · change w.h.headerUsed + name.length + value.length = size (fields ++ [⟨name, value⟩])
      rw [hwait.used, size, size, List.map_append, List.sum_append]
      simp [Nat.add_assoc]
    · simp
    · exact not_killed_nil
  | abandon id' => cases hends
  | frame f =>
    have hl : if f.type = .headers then _ else _ := hlegal
    rw [if_neg (by simpa [Event.ends] using hends)] at hl
    exact absurd hl.1 hopen
  | data id' bytes => exact absurd hlegal.1 hopen
  | closed id' error =>
    rw [hnone rfl]
    have hfate := hwait.closed hid rfl hc rfl id' error
    refine ⟨fun hsp => hfate.waiting ⟨?_, hsp.2⟩, fun hsp => hfate.lost fun hsp' => hsp ⟨?_, hsp'.2⟩⟩
    · rintro rfl
      exact hsp.1 error rfl
    · intro error' heq
      cases heq
      exact hsp'.1 rfl
  | sentFrame type reason =>
    rw [hnone rfl]
    cases type <;> exact hwait.quiet rfl ⟨rfl, rfl, rfl⟩ ⟨fun _ => by simp, not_killed_nil⟩
  | read id' capacity =>
    rw [hnone rfl]
    have hfate := hwait.read hid rfl hc rfl hlegal capacity
    exact ⟨fun hsp => hfate.waiting hsp.2, fun hsp => hfate.lost fun hk => hsp ⟨fun _ => by simp, hk⟩⟩
  | call call =>
    rw [hnone rfl]
    have hfate := Tracked.fate hwait hid (Call.tracked hid hwait.slot hv.1 _ hc)
    exact ⟨fun hsp => hfate.waiting hsp.2, fun hsp => hfate.lost fun hk => hsp ⟨fun _ => by simp, hk⟩⟩

/-- `cf_h2_reset` is calm in any session. -/
theorem reset_calm (id' : Int) (error : Nat) :
    Triple (fun c => Calm h₀ c.h) (reset id' error) fun _ c => Calm h₀ c.h := by
  refine Triple.bind (Q := fun _ c => Calm h₀ c.h) (fun _ hc => hc) fun _ => ?_
  refine Triple.get_bind fun c hc => Triple.pre ?_ fun _ h => h.2
  refine Triple.ite (fun _ => Triple.ret fun _ h => h) fun _ => ?_
  refine Triple.bind (Q := fun _ c => Calm h₀ c.h) (fun _ hc => hc) fun ok => ?_
  refine Triple.ite (fun _ => ?_) fun _ => ?_
  · exact fun c hc => hc.trans ⟨fun _ => ⟨rfl, rfl, rfl, rfl⟩, fun _ h => h, fun _ h => h,
      ⟨rfl, rfl, rfl⟩, rfl, rfl⟩
  refine Triple.bind (Q := fun _ c => Calm h₀ c.h) (fun c' hc' => ?_) fun _ c hc => ?_
  · cases c.h.findStream id' with
    | none => exact hc'
    | some k =>
      exact hc'.trans (Calm.setStream c'.h k ⟨rfl, rfl, rfl, rfl⟩ (fun _ => rfl) fun hr => hr)
  · exact hc.trans ⟨fun _ => ⟨rfl, rfl, rfl, rfl⟩, fun _ h => h, fun _ h => h, ⟨rfl, rfl, rfl⟩, rfl, rfl⟩

/-- Every event of the header block but its last leaves a lost stream lost. -/
theorem Lost.step {w : World} {e : Event} {o : Oracle} (hi : Inv w.env w.h)
    (hblock : w.env.block = some id) (hlost : Lost id w.h) (hlegal : w.env.Legal e) (hv : Valid e o)
    (hends : e.ends = false) : Lost id (w.step e o).h := by
  have hid : id ≠ 0 := fun h0 => hi.zero (h0 ▸ hi.current id hblock)
  have hc := hi.good o hv.2 []
  have hopen : w.env.block ≠ none := by
    rw [hblock]
    exact Option.some_ne_none id
  cases e with
  | clock now | fault code error | output bytes | protocolError code | invalidFrame type code =>
    exact hlost
  | beginHeaders id' request => exact absurd hlegal.1 hopen
  | header id' name value =>
    change Lost id (onHeader id' name value ⟨w.h, o, w.env.responses, []⟩).2.h
    unfold onHeader
    rw [run_bind, run_get]
    dsimp only
    split
    · exact hlost
    · split
      · have hcalm : Calm { w.h with headerStream := 0 }
            (reset id' 11 ⟨{ w.h with headerStream := 0 }, o, w.env.responses, []⟩).2.h :=
          reset_calm id' 11 _ (Calm.refl _)
        exact Lost.calm (h := { w.h with headerStream := 0 }) hlost hcalm
      · exact hlost
  | abandon id' => cases hends
  | frame f =>
    have hl : if f.type = .headers then _ else _ := hlegal
    rw [if_neg (by simpa [Event.ends] using hends)] at hl
    exact absurd hl.1 hopen
  | data id' bytes => exact absurd hlegal.1 hopen
  | closed id' error =>
    change Lost id (closedStream id' error ⟨w.h, o, w.env.responses, []⟩).2.h
    cases hs : w.h.findStream id' with
    | none =>
      unfold closedStream
      rw [run_bind, run_get]
      dsimp only
      rw [hs]
      exact hlost
    | some j =>
      obtain ⟨h', hrun, helse, -⟩ := closedStream_run (c := ⟨w.h, o, w.env.responses, []⟩) hs error
      rw [hrun]
      exact (hlost.calm (callback_good _ _ hc).calm).elsewhere helse hid
  | sentFrame type reason => cases type <;> exact hlost
  | read id' capacity =>
    have hmem : id' ∈ w.env.responses := hlegal
    change Lost id (readResponse id' capacity ⟨w.h, o, w.env.responses, []⟩).2.h
    cases hs : w.h.findStream id' with
    | none =>
      unfold readResponse
      rw [run_bind, run_get]
      dsimp only
      rw [hs]
      exact hlost
    | some j =>
      have hid' : id' ≠ 0 := fun h0 => hi.zero (h0 ▸ hi.responses id' hmem)
      have hsid := findStream_eq_some hs
      cases hreset : (w.h.streams j).reset with
      | true =>
        unfold readResponse
        rw [run_bind, run_get]
        dsimp only
        rw [hs]
        dsimp only
        rw [if_pos hreset]
        exact hlost
      | false =>
        obtain ⟨h', hrun, helse⟩ := readResponse_run (c := ⟨w.h, o, w.env.responses, []⟩) hs hreset rfl
          capacity
        have hgood := hc.restart (hi.undefer (hsid ▸ hid'))
        have hlost₁ : Lost id (w.h.setStream j { w.h.streams j with deferred := false }) :=
          hlost.elsewhere (.setStream w.h ⟨rfl, rfl⟩) hid
        rw [hrun]
        exact (hlost₁.calm (callback_good _ _ hgood).calm).elsewhere helse hid
  | call call => exact hlost.calm (Call.good hv.1 _ hc).calm

end

/-! ## The whole block -/

section
variable {id : Int} {start : Nat} {i : Fin slots} {fields : List Header} {w : World}

theorem fields_cons (e : Event) (o : Oracle) (t : Trace) :
    Trace.fields ((e, o) :: t) = e.field.toList ++ t.fields := by
  rw [Trace.fields, List.filterMap_cons]
  cases e.field <;> simp [Trace.fields]

theorem spared_cons {e : Event} {o : Oracle} {t : Trace} :
    Spared id start w ((e, o) :: t) ↔
      ((∀ error, e ≠ .closed id error) ∧ ¬ Killed id start (w.handle e o).log) ∧
        Spared id start (w.step e o) t := by
  simp only [Spared, World.notes, killed_append, not_or, List.forall_mem_cons]
  exact and_and_and_comm

/-- nghttp2 stays in the block until it ends. -/
theorem block_step {e : Event} (o : Oracle) (hblock : w.env.block = some id) (hlegal : w.env.Legal e)
    (hends : e.ends = false) : (w.step e o).env.block = some id := by
  cases e with
  | beginHeaders id' request => exact absurd (hblock.symm.trans hlegal.1) (Option.some_ne_none id)
  | frame f =>
    change (if f.type = .headers then _ else _ : Env).block = some id
    rw [if_neg (by simpa [Event.ends] using hends)]
    exact hblock
  | abandon id' => cases hends
  | _ => exact hblock

theorem Lost.run {t : Trace} (hi : Inv w.env w.h) (hblock : w.env.block = some id)
    (hlost : Lost id w.h) (hlegal : w.Legal t) (hends : ∀ x ∈ t, x.1.ends = false) :
    Lost id (w.run t).h := by
  induction t generalizing w with
  | nil => exact hlost
  | cons x t ih =>
    obtain ⟨hl, hv, hrest⟩ := hlegal
    have hend := hends x List.mem_cons_self
    exact ih (World.step_inv hi hl hv) (block_step x.2 hblock hl hend) (hlost.step hi hblock hl hv hend)
      hrest fun y hy => hends y (List.mem_cons_of_mem _ hy)

/-- What has happened between the beginning and the end tells what has become of the stream. -/
theorem Waiting.run {t : Trace} (hi : Inv w.env w.h) (hblock : w.env.block = some id)
    (hwait : Waiting id start i fields w.h) (hlegal : w.Legal t)
    (hrst : ∀ x ∈ t, ∀ ok ∈ x.2.rst, ok = true) (hends : ∀ x ∈ t, x.1.ends = false)
    (hfits : Fits (fields ++ t.fields)) :
    Fate id start i (fields ++ t.fields) (Spared id start w t) (w.run t).h := by
  induction t generalizing w fields with
  | nil =>
    rw [show fields ++ Trace.fields [] = fields from List.append_nil fields]
    exact hwait.quiet rfl ⟨rfl, rfl, rfl⟩ ⟨fun _ hx => (List.not_mem_nil hx).elim, not_killed_nil⟩
  | cons x t ih =>
    obtain ⟨e, o⟩ := x
    obtain ⟨hl, hv, hrest⟩ := hlegal
    have hend : e.ends = false := hends (e, o) List.mem_cons_self
    have hends' : ∀ x ∈ t, x.1.ends = false := fun y hy => hends y (List.mem_cons_of_mem _ hy)
    have hi' := World.step_inv hi hl hv
    have hblock' := block_step o hblock hl hend
    rw [fields_cons, ← List.append_assoc] at hfits ⊢
    have hfate := hwait.step hi hblock hl hv (hrst (e, o) List.mem_cons_self) hend hfits.of_append
    have hnext := fun hwait' => ih hi' hblock' hwait' hrest
      (fun y hy => hrst y (List.mem_cons_of_mem _ hy)) hends' hfits
    rw [spared_cons]
    refine ⟨fun hsp => (hnext (hfate.waiting hsp.1)).waiting hsp.2, fun hsp => ?_⟩
    by_cases hfirst : (∀ error, e ≠ .closed id error) ∧ ¬ Killed id start (w.handle e o).log
    · exact (hnext (hfate.waiting hfirst)).lost fun hsp' => hsp ⟨hfirst, hsp'⟩
    · have hlost := Lost.run hi' hblock' (hfate.lost hfirst) hrest hends'
      exact hlost

/-- The block begins: its stream takes a free slot. -/
theorem Waiting.begin {o : Oracle} {j : Fin slots} (hfree : w.h.findStream 0 = some j) (id : Int) :
    Waiting id w.h.nowMs j [] (w.step (.beginHeaders id true) o).h := by
  have hrun : (beginHeaders id true ⟨w.h, o, w.env.responses, []⟩).2.h =
      { w.h.setStream j { id, progressMs := w.h.nowMs } with
        stats := { w.h.stats with activeStreams := (w.h.stats.activeStreams + 1) % 2 ^ 32 }
        headerStream := id
        headers := []
        headerUsed := 0 } := by
    unfold beginHeaders
    rw [run_bind_eq (show modifySession _ _ = ((), ⟨{ w.h with headerStream := 0 }, o,
      w.env.responses, []⟩) from rfl), if_neg (by simp), run_bind, run_get]
    dsimp only
    rw [show Session.findStream { w.h with headerStream := 0 } 0 = some j from hfree]
    rfl
  change Waiting id w.h.nowMs j [] (beginHeaders id true ⟨w.h, o, w.env.responses, []⟩).2.h
  rw [hrun]
  exact ⟨setStream_self _ _ _, rfl, rfl, rfl⟩

/-- The block begins and there is no free slot: its stream is refused. -/
theorem Lost.begin {o : Oracle} (hi : Inv w.env w.h) (hfull : w.h.findStream 0 = none)
    (hlegal : w.env.Legal (.beginHeaders id true)) :
    Lost id (w.step (.beginHeaders id true) o).h := by
  have hnew : Lost id { w.h with headerStream := 0 } := by
    intro k hk
    have hk : (w.h.streams k).id = id := hk
    exact absurd (hk ▸ (hi.live k (hk ▸ hlegal.2.1)).1) hlegal.2.2
  have hcalm : Calm { w.h with headerStream := 0 }
      (reset id 7 ⟨{ w.h with headerStream := 0 }, o, w.env.responses, []⟩).2.h :=
    reset_calm id 7 _ (Calm.refl _)
  have hrun : (beginHeaders id true ⟨w.h, o, w.env.responses, []⟩).2 =
      (reset id 7 ⟨{ w.h with headerStream := 0 }, o, w.env.responses, []⟩).2 := by
    unfold beginHeaders
    rw [run_bind_eq (show modifySession _ _ = ((), ⟨{ w.h with headerStream := 0 }, o,
      w.env.responses, []⟩) from rfl), if_neg (by simp), run_bind, run_get]
    dsimp only
    rw [show Session.findStream { w.h with headerStream := 0 } 0 = none from hfull]
    rfl
  change Lost id (beginHeaders id true ⟨w.h, o, w.env.responses, []⟩).2.h
  rw [hrun]
  exact hnew.calm hcalm

/-! What has been noted stays in the log, and only `received_frame` notes requests: a property of the log
that no other note changes is kept by all else. -/

/-- Notes that are not requests do not matter to the property. -/
def Steady (P : List Note → Prop) : Prop :=
  ∀ log n, (∀ r, n ≠ .request r) → P log → P (log ++ [n])

theorem steady_mem (n : Note) : Steady (n ∈ ·) := fun _ _ _ => List.mem_append_left _

section
variable {P : List Note → Prop} (hP : Steady P)
include hP

theorem note_noted {n : Note} (hn : ∀ r, n ≠ .request r) :
    Triple (fun c => P c.log) (note n) fun _ c => P c.log :=
  fun _ hc => hP _ _ hn hc

theorem reset_noted (id' : Int) (error : Nat) :
    Triple (fun c => P c.log) (reset id' error) fun _ c => P c.log := by
  refine Triple.bind (note_noted hP nofun) fun _ => ?_
  refine Triple.get_bind fun c hc => Triple.pre ?_ fun _ h => h.2
  refine Triple.ite (fun _ => Triple.ret fun _ h => h) fun _ => ?_
  refine Triple.bind (Q := fun _ c => P c.log) (fun _ hc => hc) fun ok => ?_
  refine Triple.ite (fun _ _ hc => hc) fun _ => ?_
  refine Triple.bind (Q := fun _ c => P c.log) (fun c' hc' => ?_) fun _ _ hc => hc
  cases c.h.findStream id' with
  | none => exact hc'
  | some j => exact hP _ _ nofun hc'

theorem Call.noted (call : Call) : Triple (fun c => P c.log) call.run fun _ c => P c.log := by
  cases call with
  | reset id' error => exact Triple.bind (reset_noted hP id' error) fun _ _ hc => hc
  | respond id' status headers origin =>
    refine Triple.bind (Triple.bind (note_noted hP nofun) fun _ => ?_) fun _ _ hc => hc
    refine Triple.ite (fun _ => Triple.ret fun _ h => h) fun _ => Triple.get_bind fun c _ => ?_
    dsimp only
    cases c.h.findStream id' with
    | none => exact Triple.ret fun _ h => h.2
    | some j =>
      refine Triple.ite (fun _ => Triple.ret fun _ h => h.2) fun _ => ?_
      cases Headers.headersEncode headers Headers.wireMax with
      | error rc => exact Triple.ret fun _ h => h.2
      | ok wire =>
        refine Triple.ite (fun _ => Triple.ret fun _ h => h.2) fun _ => ?_
        refine Triple.bind (Q := fun _ c => P c.log) (fun _ hc => hc.2) fun ok => ?_
        exact Triple.ite (fun _ => Triple.ret fun _ h => h) fun _ _ hc => hP _ _ nofun hc
  | resume id' =>
    refine Triple.bind (Triple.bind (note_noted hP nofun) fun _ => ?_) fun _ _ hc => hc
    refine Triple.get_bind fun c _ => ?_
    dsimp only
    cases c.h.findStream id' with
    | none => exact Triple.ret fun _ h => h.2
    | some j =>
      refine Triple.ite (fun _ => Triple.ret fun _ h => h.2) fun _ => ?_
      refine Triple.ite (fun _ => Triple.ret fun _ h => h.2) fun _ => ?_
      refine Triple.bind (Q := fun _ c => P c.log) (fun _ hc => hc.2) fun ok => ?_
      exact Triple.ite (fun _ => Triple.ret fun _ h => h) fun _ _ hc => hc
  | shutdown =>
    refine Triple.bind (Triple.bind (note_noted hP nofun) fun _ => ?_) fun _ _ hc => hc
    refine Triple.bind (Q := fun _ c => P c.log) (fun _ hc => hc) fun _ => ?_
    refine Triple.bind (Q := fun _ c => P c.log) (fun _ hc => hc) fun ok => ?_
    exact Triple.ite (fun _ => Triple.ret fun _ h => h) fun _ => Triple.ret fun _ h => h
  | sent k =>
    refine Triple.bind (Triple.bind (note_noted hP nofun) fun _ => ?_) fun _ _ hc => hc
    refine Triple.get_bind fun c _ => Triple.pre ?_ fun _ h => h.2
    exact Triple.ite (fun _ => Triple.ret fun _ h => h) fun _ _ hc => hc
  | tick now =>
    refine Triple.bind (note_noted hP nofun) fun _ => ?_
    refine Triple.bind (Q := fun _ c => P c.log) (fun _ hc => hc) fun _ => ?_
    have hslots : ∀ l, Triple (fun c : Ctx => P c.log) (tickSlots now l) fun _ c => P c.log := by
      intro l
      induction l with
      | nil => exact Triple.ret fun _ h => h
      | cons j l ih =>
        refine Triple.bind (Triple.get_bind fun c _ => Triple.pre ?_ fun _ h => h.2) fun _ => ih
        refine Triple.ite (fun _ => ?_) fun _ => Triple.ret fun _ h => h
        exact Triple.bind (reset_noted hP _ 8) fun _ _ hc => hc
    exact hslots _

theorem callback_noted {n : Note} (hn : ∀ r, n ≠ .request r) :
    Triple (fun c => P c.log) (callback n) fun _ c => P c.log :=
  callback_triple (note_noted hP hn) (fun _ => note_noted hP nofun) (fun _ hc => hc)
    fun _ _ call _ => Call.noted hP call

end

theorem endOfStream_noted {P : List Note → Prop} (hP : Steady P) (j : Fin slots) (f : Frame) :
    Triple (fun c => P c.log) (endOfStream j f) fun _ c => P c.log := by
  refine Triple.ite (fun _ => ?_) fun _ => Triple.ret fun _ h => h
  refine Triple.get_bind fun c _ => Triple.pre ?_ fun _ h => h.2
  refine Triple.bind (callback_noted hP nofun) fun reply => ?_
  refine Triple.ite (fun _ => ?_) fun _ => Triple.ret fun _ h => h
  exact Triple.bind (reset_noted hP _ 8) fun _ _ hc => hc

/-- A request that is not noted is no older or newer for it. -/
theorem request_mem_iff {α : Type} {x : M α}
    (hx : ∀ P, Steady P → Triple (fun c => P c.log) x fun _ c => P c.log) (r : Request) (c : Ctx) :
    .request r ∈ (x c).2.log ↔ .request r ∈ c.log := by
  have hold : Steady fun log => .request r ∈ log → .request r ∈ c.log := by
    intro log n hn hlog hmem
    rcases List.mem_append.1 hmem with hmem | hmem
    · exact hlog hmem
    · exact absurd (List.mem_singleton.1 hmem).symm (hn r)
  exact ⟨hx _ hold c fun h => h, hx _ (steady_mem _) c⟩

theorem resetStatus_noted {P : List Note → Prop} (hP : Steady P) (id' : Int) (error : Nat) :
    Triple (fun c => P c.log) (resetStatus id' error) fun _ c => P c.log :=
  Triple.bind (reset_noted hP id' error) fun _ _ hc => hc

/-- The callback for a request notes it, and no other one. -/
theorem callback_request (r r' : Request) (c : Ctx) :
    .request r ∈ (callback (.request r') c).2.log ↔ .request r ∈ c.log ∨ r = r' := by
  obtain ⟨reply, hreply⟩ : ∃ reply, reply = c.oracle.replies.headD {} := ⟨_, rfl⟩
  have hrest := request_mem_iff (x := do
      runCalls reply.calls
      note (.returned (.request r') reply.result)
      return reply) (fun P hP => Triple.bind (runCalls_triple fun call _ => Call.noted hP call) fun _ =>
        Triple.bind (note_noted hP nofun) fun _ _ hc => hc) r { c with
    log := c.log ++ [.request r'], oracle := { c.oracle with replies := c.oracle.replies.tail } }
  subst hreply
  refine hrest.trans ?_
  rw [List.mem_append, List.mem_singleton]
  simp

/-- There is room for the stream in slot `i` as one of the kind. -/
def Session.hasRoom (h : Session) (i : Fin slots) (kind : Kind) : Bool :=
  (h.setStream i { h.streams i with kind }).count kind < h.limit kind

/-- The request that a complete header block notes. -/
theorem headerBlock_request (i : Fin slots) (endStream : Bool) (r : Request) (c : Ctx) :
    .request r ∈ (headerBlock i endStream c).2.log ↔ .request r ∈ c.log ∨
      classify c.h.headers = some r.kind ∧ c.h.hasRoom i r.kind = true ∧
        r = ⟨(c.h.streams i).id, r.kind, c.h.headers, endStream⟩ := by
  have hreset : ∀ c' : Ctx, .request r ∈ (resetStatus (c.h.streams i).id 7 c').2.log ↔
      .request r ∈ c'.log := request_mem_iff (fun P hP => resetStatus_noted hP _ _) r
  unfold headerBlock
  rw [run_bind, run_get]
  dsimp only
  cases hclass : classify c.h.headers with
  | none =>
    refine (hreset c).trans ?_
    simp
  | some kind =>
    obtain ⟨c₁, hc₁⟩ : ∃ c₁ : Ctx, c₁ = { c with
      h := c.h.setStream i { c.h.streams i with kind } } := ⟨_, rfl⟩
    dsimp only
    rw [run_bind_eq (show modifySession _ c = ((), c₁) by rw [hc₁]; rfl), run_bind, run_get]
    dsimp only
    have hlog : c₁.log = c.log := by rw [hc₁]
    by_cases hroom : c₁.h.count kind ≥ c₁.h.limit kind
    · have hfull : c.h.hasRoom i kind = false := by
        rw [hc₁] at hroom
        exact decide_eq_false (not_lt.2 hroom)
      rw [if_pos hroom]
      refine (hreset c₁).trans ?_
      rw [hlog]
      refine (or_iff_left ?_).symm
      rintro ⟨hkind, hpasses, -⟩
      obtain rfl := Option.some.inj hkind
      rw [hfull] at hpasses
      cases hpasses
    · have hpasses : c.h.hasRoom i kind = true := by
        rw [hc₁] at hroom
        exact decide_eq_true (not_le.1 hroom)
      obtain ⟨c₂, hc₂⟩ : ∃ c₂ : Ctx, c₂ = { c₁ with
        h := c₁.h.setStream i { c₁.h.streams i with headersDone := true } } := ⟨_, rfl⟩
      have hheaders : c₁.h.headers = c.h.headers := by rw [hc₁]; rfl
      rw [if_neg hroom, run_bind_eq (show modifySession _ c₁ = ((), c₂) by rw [hc₂]; rfl), hheaders]
      have hasked := callback_request r ⟨(c.h.streams i).id, kind, c.h.headers, endStream⟩ c₂
      obtain ⟨reply, c₃, hrun⟩ : ∃ reply c₃, callback (.request ⟨(c.h.streams i).id, kind, c.h.headers,
        endStream⟩) c₂ = (reply, c₃) := ⟨_, _, rfl⟩
      rw [hrun, show c₂.log = c.log by rw [hc₂, hlog]] at hasked
      have hwhole : .request r ∈ c₃.log ↔ .request r ∈ c.log ∨ some kind = some r.kind ∧
          c.h.hasRoom i r.kind = true ∧ r = ⟨(c.h.streams i).id, r.kind, c.h.headers, endStream⟩ := by
        refine hasked.trans (or_congr_right ⟨?_, ?_⟩)
        · rintro rfl
          exact ⟨rfl, hpasses, rfl⟩
        · rintro ⟨hkind, -, hr⟩
          obtain rfl := Option.some.inj hkind
          exact hr
      rw [run_bind_eq hrun]
      split
      · exact (hreset c₃).trans hwhole
      · exact hwhole

/-- **The request that a frame notes**: that of its stream, with the headers collected for it. -/
theorem frame_request (id : Int) (endStream : Bool) (o : Oracle) (r : Request) :
    .request r ∈ (w.handle (.frame ⟨id, .headers, endStream⟩) o).log ↔
      ∃ i, w.h.findStream id = some i ∧ (w.h.streams i).reset = false ∧ w.h.headerStream = id ∧
        classify w.h.headers = some r.kind ∧ w.h.hasRoom i r.kind = true ∧
        r = ⟨id, r.kind, w.h.headers, endStream⟩ := by
  obtain ⟨c, hc⟩ : ∃ c : Ctx, c = ⟨w.h, o, w.env.responses, []⟩ := ⟨_, rfl⟩
  have hhandle : (w.handle (.frame ⟨id, .headers, endStream⟩) o).log =
    (receivedFrame ⟨id, .headers, endStream⟩ c).2.log := by rw [hc]; rfl
  have hh : c.h = w.h := by rw [hc]
  have hempty : .request r ∉ c.log := by rw [hc]; exact List.not_mem_nil
  rw [hhandle, ← hh]
  unfold receivedFrame
  rw [run_bind, run_get]
  dsimp only
  rw [run_bind_eq (show modifySession _ _ = ((), c) from rfl)]
  cases hs : c.h.findStream id with
  | none => simp [hempty]
  | some i =>
    have hone : ∀ P : Fin slots → Prop, (∃ j, some i = some j ∧ P j) ↔ P i := by simp
    rw [hone]
    dsimp only
    rw [run_bind, run_get]
    dsimp only
    by_cases hreset : (c.h.streams i).reset = true
    · rw [if_pos hreset, hreset]
      simp [hempty]
    rw [if_neg hreset, Bool.not_eq_true] at *
    by_cases hstream : c.h.headerStream = id
    · rw [if_pos ⟨rfl, hstream⟩]
      have hnoted := headerBlock_request i endStream r c
      obtain ⟨result, c₁, hrun⟩ : ∃ result c₁, headerBlock i endStream c = (result, c₁) := ⟨_, _, rfl⟩
      rw [hrun, or_iff_right hempty, findStream_eq_some hs] at hnoted
      rw [run_bind_eq hrun]
      have hend := request_mem_iff (fun P hP => endOfStream_noted hP i ⟨id, .headers, endStream⟩) r c₁
      cases result with
      | some status => simpa [hreset, hstream] using hnoted
      | none => simpa [hreset, hstream] using hend.trans hnoted
    · rw [if_neg fun h => hstream h.2]
      have hend := request_mem_iff (fun P hP => endOfStream_noted hP i ⟨id, .headers, endStream⟩) r c
      refine hend.trans (iff_of_false hempty ?_)
      rintro ⟨-, hsame, -⟩
      exact hstream hsame

theorem Waiting.requested (hi : Inv w.env w.h) (hid : id ≠ 0) (hwait : Waiting id start i fields w.h)
    {kind : Kind} (hclass : classify fields = some kind) (hkind : kind ≠ .http)
    (hcount : w.h.count kind = 0) (endStream : Bool) {o : Oracle}
    (hv : ∀ reply ∈ o.replies, ∀ call ∈ reply.calls, call.Valid) :
    .request ⟨id, kind, fields, endStream⟩ ∈ (w.handle (.frame ⟨id, .headers, endStream⟩) o).log := by
  have hfind : w.h.findStream id = some i :=
    ((hi.good o hv []).findStream_iff hid hwait.slot id).2 rfl
  have hroom : w.h.hasRoom i kind = true := by
    have hlimit : w.h.limit kind = 1 := if_neg hkind
    have hle : (w.h.setStream i { w.h.streams i with kind }).count kind ≤ w.h.count kind := by
      refine Table.tally_update_le fun ha => ?_
      simp [Stream.admitted, hwait.slot] at ha
    exact decide_eq_true (by omega)
  refine (frame_request id endStream o _).2 ⟨i, hfind, ?_, hwait.stream, ?_, hroom, ?_⟩
  · rw [hwait.slot]
  · rw [hwait.headers, hclass]
  · rw [hwait.headers]

/-- For a lost stream no callback is made. -/
theorem Lost.not_requested (hlost : Lost id w.h) (endStream : Bool) (o : Oracle) :
    (w.handle (.frame ⟨id, .headers, endStream⟩) o).log = [] := by
  change (receivedFrame ⟨id, .headers, endStream⟩ ⟨w.h, o, w.env.responses, []⟩).2.log = []
  unfold receivedFrame
  rw [run_bind, run_get]
  dsimp only
  rw [run_bind_eq (show modifySession _ _ = ((), ⟨w.h, o, w.env.responses, []⟩) from rfl)]
  cases hs : w.h.findStream id with
  | none => rfl
  | some j =>
    dsimp only
    rw [run_bind, run_get]
    dsimp only
    rw [if_pos (hlost j (findStream_eq_some hs))]
    rfl

theorem legal_append {t t' : Trace} : w.Legal (t ++ t') ↔ w.Legal t ∧ (w.run t).Legal t' := by
  induction t generalizing w with
  | nil => exact (true_and _).symm.to_iff
  | cons x t ih =>
    change _ ∧ _ ∧ (w.step x.1 x.2).Legal (t ++ t') ↔ (_ ∧ _ ∧ (w.step x.1 x.2).Legal t) ∧
      ((w.step x.1 x.2).run t).Legal t'
    rw [ih]
    tauto

/-- For the complete header block of a control or a configuration request that fits, and with no
other such stream, the application is asked about it exactly if a slot was free when the block began
and nothing took the stream away in between. -/
theorem requested_iff {b : Block} (hw : Reach w) (ha : b.Arrives w) (hfits : Fits b.between.fields)
    {kind : Kind} (hclass : classify b.between.fields = some kind) (hkind : kind ≠ .http)
    (hcount : (w.run b.opening).h.count kind = 0) :
    b.Requested w kind ↔ (∃ i, (w.h.streams i).id = 0) ∧ b.Undisturbed w := by
  have hi := hw.inv
  obtain ⟨⟨hl, hv, hbetween⟩, hl', hv', -⟩ := legal_append.1 ha.legal
  have hi' : Inv (w.step b.start b.first).env (w.step b.start b.first).h := World.step_inv hi hl hv
  have hblock : (w.step b.start b.first).env.block = some b.id := rfl
  have hlast : Inv (w.run b.opening).env (w.run b.opening).h := (hw.run (legal_append.1 ha.legal).1).inv
  have hrst : ∀ x ∈ b.between, ∀ ok ∈ x.2.rst, ok = true := fun x hx =>
    ha.rst x (List.mem_append_left _ (List.mem_cons_of_mem _ hx))
  have hlost : Lost b.id (w.run b.opening).h → ¬ b.Requested w kind := by
    intro hlost hreq
    rw [Block.Requested, Block.frame, hlost.not_requested] at hreq
    cases hreq
  cases hfree : w.h.findStream 0 with
  | none =>
    refine iff_of_false (hlost ?_) fun hcond => ?_
    · have hrun := Lost.run hi' hblock (Lost.begin hi hfree hl) hbetween ha.whole
      exact hrun
    · obtain ⟨i, hzero⟩ := hcond.1
      exact findStream_eq_none hfree i hzero
  | some i =>
    have hfate := Waiting.run hi' hblock (Waiting.begin hfree b.id) hbetween hrst ha.whole
      (by rwa [List.nil_append])
    rw [List.nil_append] at hfate
    constructor
    · intro hreq
      refine ⟨⟨i, findStream_eq_some hfree⟩, ?_⟩
      by_contra hdisturbed
      exact hlost (hfate.lost hdisturbed) hreq
    · rintro ⟨-, hspared⟩
      exact (hfate.waiting hspared).requested hlast hl.2.1 hclass hkind hcount b.endStream hv'.2

end

/-! ## An overload -/

/-- The pseudo fields of a request, as they arrive on the stream. -/
def pseudoFields (id : Int) : Trace :=
  [(":method", "GET"), (":scheme", "https"), (":authority", "device.example"), (":path", "/")].map
    fun x => (.header id (text x.1) (text x.2), {})

/-- A whole request of an application. -/
def httpRequest (id : Int) : Trace :=
  (.beginHeaders id true, {}) :: (pseudoFields id).append [(.frame ⟨id, .headers, true⟩, {})]

/-- A session with four application streams after six requests, before any output: the last two are
refused but not closed. -/
def overloaded : World :=
  World.run ⟨{ appLimit := 4 }, {}⟩ ([1, 3, 5, 7, 9, 11].flatMap httpRequest)

/-- The header block of the control stream. -/
def controlBlock (id : Int) : Block where
  id := id
  between := (pseudoFields id).append [(.header id upgradeName controlStream, {})]

theorem reach_overloaded : Reach overloaded := by
  have hcreate : h2Create 4 8192 true = .ok { appLimit := 4 } := rfl
  have hlegal : World.Legal ⟨{ appLimit := 4 }, {}⟩ ([1, 3, 5, 7, 9, 11].flatMap httpRequest) := by
    decide +kernel
  exact (Reach.create hcreate).run hlegal

/-- Nothing happens in the block but its fields. -/
theorem controlBlock_undisturbed (w : World) (id : Int) (hnotes :
    (w.step (controlBlock id).start {}).notes (controlBlock id).between = []) :
    (controlBlock id).Undisturbed w := by
  refine ⟨fun x hx error => ?_, ?_⟩
  · have hall : ∀ x ∈ (controlBlock id).between, x.1.field.isSome = true := by
      intro x hx
      rcases List.mem_append.1 hx with hx | hx
      · simp only [pseudoFields, List.map_cons, List.map_nil, List.mem_cons, List.not_mem_nil,
          or_false] at hx
        rcases hx with rfl | rfl | rfl | rfl <;> rfl
      · rw [List.mem_singleton.1 hx]
        rfl
    intro heq
    have := hall x hx
    rw [heq] at this
    cases this
  · rw [show (controlBlock id).first = {} from rfl, hnotes]
    exact not_killed_nil

/-- The control stream is refused by the overloaded session, which has no control stream. -/
theorem control_refused :
    Reach overloaded ∧ (controlBlock 13).Arrives overloaded ∧
      Fits (controlBlock 13).between.fields ∧
      classify (controlBlock 13).between.fields = some .control ∧
      (overloaded.run (controlBlock 13).opening).h.count .control = 0 ∧
      (controlBlock 13).Undisturbed overloaded ∧ ¬ (controlBlock 13).Requested overloaded .control := by
  refine ⟨reach_overloaded, ⟨by decide +kernel, by decide +kernel, by decide +kernel⟩,
    by decide +kernel, by decide +kernel, by decide +kernel,
    controlBlock_undisturbed _ _ (by decide +kernel), ?_⟩
  unfold Block.Requested
  decide +kernel

/-- The control stream is asked about when nothing else has come. -/
theorem requested_iff_control :
    (controlBlock 1).Requested ⟨{ appLimit := 4 }, {}⟩ .control := by
  have hcreate : h2Create 4 8192 true = .ok { appLimit := 4 } := rfl
  exact (requested_iff (Reach.create hcreate) ⟨by decide +kernel, by decide +kernel, by decide +kernel⟩
    (by decide +kernel) (by decide +kernel) (by simp) (by decide +kernel)).2
    ⟨⟨0, rfl⟩, controlBlock_undisturbed _ _ (by decide +kernel)⟩

end EspCfTunnel.H2
