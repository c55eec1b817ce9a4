import EspCfTunnel.Lib.StateLogic
import EspCfTunnel.Framing.Frames

/-!
# The reader stays inside its frame

Whatever the bytes of an accepted frame, every run of reader calls touches only bytes of the segment
they are attributed to, and every struct or list it hands out lies in one segment. What a primitive
may rely on and leaves behind is `Reader.At`: the geometry of the frame is unchanged, every recorded
access is in bounds, and the budget is at most some number. Following a pointer pays for the extent
of what it returns (`follow_triple`), which bounds all extents ever returned by the budget.
-/

namespace EspCfTunnel.Capnp

open EspCfTunnel Framing StateLogic

/-! ## Geometry -/

/-- The words lie in segment `seg` of the reader `g`. -/
def Reader.Inside (g : Reader) (seg word words : Nat) : Prop :=
  seg < g.segmentCount ∧ word + words ≤ (g.segment seg).len / 8

/-- The access lies in the segment it is attributed to. -/
def Access.InBounds (g : Reader) (a : Access) : Prop :=
  a.segment < g.segmentCount ∧ a.first + a.len ≤ (g.segment a.segment).len

/-- The words a value spans: its data and pointers, its elements, or its tag and elements. -/
def Value.extent (v : Value) : Nat :=
  match v.kind with
  | .struct => v.dataWords + v.pointers
  | .list =>
    if v.elementSize = 7 then 1 + v.count * (v.dataWords + v.pointers)
    else (v.count * elementBits v.elementSize + 63) / 64
  | _ => 0

/-- The first word of a value's extent; the tag of an inline-composite list is before its word. -/
def Value.start (v : Value) : Nat :=
  if v.kind = .list ∧ v.elementSize = 7 then v.word - 1 else v.word

/-- The value is a struct or a list, so it spans words of the frame. -/
def Value.IsObject (v : Value) : Prop := v.kind = .struct ∨ v.kind = .list

instance (v : Value) : Decidable v.IsObject := inferInstanceAs (Decidable (_ ∨ _))

/-- What a value costs the budget at least: its extent, and one word if that is empty. -/
def Value.cost (v : Value) : Nat := if v.IsObject then max 1 v.extent else 0

/-- The whole extent of a struct or list lies in one segment, at an allowed depth. -/
def Value.Within (g : Reader) (v : Value) : Prop :=
  v.IsObject → g.Inside v.segment v.start v.extent ∧ v.start ≤ v.word ∧ v.depth ≤ depthMax

/-- What holds between two primitives: the geometry is that of `g`, every access was in bounds, and
at most `b` words of budget are left. -/
structure Reader.At (g : Reader) (b : Nat) (r : Reader) : Prop where
  frame : r.frame = g.frame
  segments : r.segments = g.segments
  count : r.segmentCount = g.segmentCount
  reads : ∀ a ∈ r.reads, a.InBounds g
  budget : r.budget ≤ b

variable {g : Reader} {b : Nat}

theorem Reader.At.segment {r : Reader} (h : g.At b r) (seg : Nat) : r.segment seg = g.segment seg := by
  unfold Reader.segment; rw [h.segments]

theorem Reader.At.mono {r : Reader} {b' : Nat} (h : g.At b r) (hb : b ≤ b') : g.At b' r :=
  { h with budget := h.budget.trans hb }

/-! ## Primitives -/

theorem setError_triple (rc : Result) : Triple (g.At b) (setError rc) fun _ r => g.At b r :=
  fun _ h => { h with }

theorem load_triple {seg first n : Nat} (h : (⟨seg, first, n⟩ : Access).InBounds g) :
    Triple (g.At b) (load seg first n) fun _ r => g.At b r := by
  intro r hr
  refine { hr with reads := ?_ }
  intro a ha
  rcases List.mem_cons.1 ha with rfl | ha
  · exact h
  · exact hr.reads a ha

theorem range_triple (seg word words : Nat) :
    Triple (g.At b) (range seg word words) fun ok r =>
      g.At b r ∧ (ok = true → g.Inside seg word words) := by
  refine Triple.get_bind fun r hr => ?_
  refine Triple.ite (fun _ => Triple.ret fun s hs => ⟨hs.2, by simp⟩) fun _ => ?_
  refine Triple.ite (fun _ => ?_) fun hin => ?_
  · refine Triple.bind ((setError_triple _).pre fun s hs => hs.2) fun _ => ?_
    exact Triple.ret fun s hs => ⟨hs, by simp⟩
  · refine Triple.ret fun s hs => ⟨hs.2, fun _ => ?_⟩
    rw [hr.segment, hr.count] at hin
    exact ⟨by omega, by omega⟩

/-- Paying takes at least one word, and never more than there is. -/
theorem charge_triple (hb : b ≤ traversalWords) (words : Nat) :
    Triple (g.At b) (charge words) fun ok r =>
      g.At b r ∧ (ok = true → max 1 words ≤ b ∧ g.At (b - max 1 words) r) := by
  have hpay : (if words = 0 then 1 else words) = max 1 words := by split <;> omega
  unfold charge
  dsimp only
  rw [hpay]
  refine Triple.get_bind fun r hr => ?_
  refine Triple.ite (fun _ => ?_) fun hle s hs => ?_
  · refine Triple.bind ((setError_triple _).pre fun s hs => hs.2) fun _ => ?_
    exact Triple.ret fun s hs => ⟨hs, by simp⟩
  · have hbud := hr.budget
    have hleft : (r.budget + 2 ^ 32 - max 1 words % 2 ^ 32) % 2 ^ 32 = r.budget - max 1 words := by
      unfold traversalWords at hb
      omega
    simp only [run_bind, run_set, run_pure, hleft]
    refine ⟨{ hr with budget := ?_ }, fun _ => ⟨by omega, { hr with budget := ?_ }⟩⟩
    · dsimp only; omega
    · dsimp only; omega

theorem wordAt_triple (seg word : Nat) :
    Triple (g.At b) (wordAt seg word) fun _ r => g.At b r := by
  unfold wordAt
  refine Triple.guard (range_triple seg word 1) (Triple.ret fun _ h => h) ?_
  refine Triple.of_fact fun hin => Triple.bind (load_triple ?_) fun _ => Triple.ret fun _ h => h
  exact ⟨hin.1, by have := hin.2; dsimp only; omega⟩

/-- Resolving a far pointer pays for its landing pad. -/
theorem landingPad_triple (hb : b ≤ traversalWords) (seg slot p : Nat) :
    Triple (g.At b) (landingPad seg slot p) fun _ r => g.At b r := by
  have hfail : Triple (g.At b) (do setError .format; return (none : Option Target))
      fun _ r => g.At b r := Triple.bind (setError_triple _) fun _ => Triple.ret fun _ h => h
  have hret : ∀ t : Option Target, Triple (g.At b) (pure t) fun _ r => g.At b r :=
    fun _ => Triple.ret fun _ h => h
  unfold landingPad
  refine Triple.ite (fun _ => hret _) fun _ => ?_
  refine Triple.guard (range_triple _ _ _) (hret _) (Triple.of_fact fun _ => ?_)
  refine Triple.guard (charge_triple hb _) (hret _) ?_
  refine Triple.bind ((wordAt_triple _ _).pre fun _ h => h.2) fun _ => ?_
  refine Triple.ite (fun _ => ?_) fun _ => Triple.ite (fun _ => hfail) fun _ => hret _
  exact Triple.bind (wordAt_triple _ _) fun _ => Triple.ite (fun _ => hfail) fun _ => hret _

/-! ## Following a pointer -/

/-- What an operation that returns a value promises: the budget has paid for the value, and its
extent is in one segment. -/
def Paid (g : Reader) (b : Nat) (v : Value) (r : Reader) : Prop :=
  v.cost ≤ b ∧ g.At (b - v.cost) r ∧ v.Within g

theorem paid_of_not_isObject {v : Value} (hv : ¬ v.IsObject) {r : Reader} (h : g.At b r) :
    Paid g b v r := by
  have hc : v.cost = 0 := if_neg hv
  exact ⟨by omega, by rwa [hc, Nat.sub_zero], fun ho => absurd ho hv⟩

/-- The null value costs nothing and spans nothing. -/
theorem paid_null {r : Reader} (h : g.At b r) : Paid g b {} r :=
  paid_of_not_isObject (by decide) h

theorem fail_triple (rc : Result) :
    Triple (g.At b) (do setError rc; return ({} : Value)) (Paid g b) :=
  Triple.bind (setError_triple rc) fun _ => Triple.ret fun _ h => paid_null h

theorem Paid.of_charge {v : Value} {words : Nat} {r : Reader} (hw : v.extent ≤ words)
    (hin : v.Within g) (hpay : max 1 words ≤ b ∧ g.At (b - max 1 words) r) : Paid g b v r := by
  have hc : v.cost ≤ max 1 words := by unfold Value.cost; split <;> omega
  exact ⟨hc.trans hpay.1, hpay.2.mono (by omega), hin⟩

/-- A struct or a plain list of `words` words is returned only if they are inside and paid for. -/
theorem extent_triple (hb : b ≤ traversalWords) {v : Value} {words : Nat} (hw : v.extent = words)
    (hs : v.start = v.word) (hd : v.depth ≤ depthMax) :
    Triple (g.At b) (extent v words) (Paid g b) := by
  have hnull : Triple (g.At b) (pure {}) (Paid g b) := Triple.ret fun _ h => paid_null h
  unfold extent
  refine Triple.guard (range_triple _ _ _) hnull (Triple.of_fact fun hin => ?_)
  refine Triple.guard (charge_triple hb words) hnull ?_
  refine Triple.ret fun _ h => Paid.of_charge hw.le ?_ h.1
  exact fun _ => ⟨by rw [hs, hw]; exact hin, hs.le, hd⟩

/-- An inline-composite list is returned only if its tag and words are inside and paid for, and its
elements take no more than those words. -/
theorem composite_triple (hb : b ≤ traversalWords) {v : Value} (hk : v.kind = .list)
    (he : v.elementSize = 7) (hd : v.depth ≤ depthMax) :
    Triple (g.At b) (composite v) (Paid g b) := by
  have hnull : Triple (g.At b) (pure {}) (Paid g b) := Triple.ret fun _ h => paid_null h
  unfold composite
  refine Triple.guard (range_triple _ _ _) hnull (Triple.of_fact fun hin => ?_)
  refine Triple.bind (wordAt_triple _ _) fun tag => ?_
  refine Triple.ite (fun _ => fail_triple _) fun _ => ?_
  refine Triple.ite (fun _ => fail_triple _) fun hfit => ?_
  dsimp only at hfit
  refine Triple.guard (charge_triple hb _) hnull ?_
  refine Triple.ret fun _ h => Paid.of_charge ?_ ?_ h.1
  · simp only [Value.extent, hk, he, if_true]
    omega
  · refine fun _ => ⟨⟨hin.1, ?_⟩, ?_, hd⟩
    · have := hin.2
      simp only [Value.extent, Value.start, hk, he, if_true, and_self]
      omega
    · simp only [Value.start, hk, he, and_self, if_true]
      omega

/-- What a resolved pointer returns is in bounds and paid for. -/
theorem object_triple (hb : b ≤ traversalWords) (t : Target) {depth : Nat}
    (hd : depth ≤ depthMax) : Triple (g.At b) (object t depth) (Paid g b) := by
  unfold object
  refine Triple.ite (fun _ => ?_) fun _ => ?_
  · refine Triple.ite (fun _ => fail_triple _) fun _ => ?_
    exact Triple.ret fun _ h => paid_of_not_isObject (by simp [Value.IsObject]) h
  refine Triple.ite (fun _ => fail_triple _) fun _ => ?_
  refine Triple.ite (fun _ => ?_) fun _ => ?_
  · exact extent_triple hb rfl (by simp [Value.start]) hd
  refine Triple.ite (fun _ => ?_) fun _ => fail_triple _
  refine Triple.ite (fun he => composite_triple hb rfl he hd) fun he => ?_
  refine extent_triple hb ?_ ?_ hd
  · exact if_neg he
  · exact if_neg fun h => he h.2

/-- **Following a pointer** returns a value whose extent is inside one segment and paid for. -/
theorem follow_triple (hb : b ≤ traversalWords) (seg slot depth : Nat) :
    Triple (g.At b) (follow seg slot depth) (Paid g b) := by
  have hnull : Triple (g.At b) (pure {}) (Paid g b) := Triple.ret fun _ h => paid_null h
  unfold follow
  refine Triple.get_bind fun r hr => Triple.pre (P := g.At b) ?_ fun _ h => h.2
  refine Triple.ite (fun _ => hnull) fun _ => ?_
  refine Triple.ite (fun _ => fail_triple _) fun hd => ?_
  refine Triple.bind (wordAt_triple _ _) fun p => ?_
  refine Triple.get_bind fun r hr => Triple.pre (P := g.At b) ?_ fun _ h => h.2
  refine Triple.ite (fun _ => hnull) fun _ => ?_
  refine Triple.guard (charge_triple hb _) hnull (Triple.pre (P := g.At b) ?_ fun _ h => h.2)
  refine Triple.ite (fun _ => hnull) fun _ => ?_
  refine Triple.bind (landingPad_triple hb _ _ _) fun t => ?_
  cases t with
  | none => exact hnull
  | some t => exact object_triple hb t (by omega)

/-! ## Calls on the values of earlier calls -/

/-- One call of the reader's interface. -/
inductive Call
  | root
  | field (s : Value) (index : Nat)
  | element (list : Value) (index : Nat)
  | uint (s : Value) (byte width : Nat)
  | data (v : Value) (text : Bool)
  deriving DecidableEq

/-- What a call returns. -/
inductive Reply
  | value (v : Value)
  | number (n : Nat)
  | slice (b : Option View)
  deriving DecidableEq

/-- The `cf_cp_value` argument of a call. -/
def Call.arg : Call → Option Value
  | .root => none
  | .field s _ => some s
  | .element list _ => some list
  | .uint s _ _ => some s
  | .data v _ => some v

def Call.run : Call → StateM Reader Reply
  | .root => .value <$> cpRoot
  | .field s index => .value <$> cpField s index
  | .element list index => .value <$> cpAt list index
  | .uint s byte width => .number <$> cpUint s byte width
  | .data v text => .slice <$> cpData v text

/-- The null, zero or empty result of a call. -/
def Call.nothing : Call → Reply
  | .root | .field .. | .element .. => .value {}
  | .uint .. => .number 0
  | .data .. => .slice none

/-- The call follows a pointer; an element of an inline-composite list is reached without one. -/
def Call.follows : Call → Bool
  | .root | .field .. => true
  | .element list _ => list.elementSize ≠ 7
  | _ => false

/-- The words of a struct or list the call returned by following a pointer, at least one. -/
def price : Call × Reply → Nat
  | (c, .value v) => if c.follows then v.cost else 0
  | _ => 0

/-- A finite sequence of calls on the reader `g`, latest first, each with a value of an earlier one,
and the reader after it. -/
inductive Session (g : Reader) : List (Call × Reply) → Reader → Prop
  | init : Session g [] g
  | call {log : List (Call × Reply)} {r : Reader} (c : Call) : Session g log r →
      (∀ v, c.arg = some v → ∃ c', (c', Reply.value v) ∈ log) →
      Session g ((c, (c.run r).1) :: log) (c.run r).2

/-- The slice lies in the frame. -/
def Reply.Fine (g : Reader) : Reply → Prop
  | .value v => v.Within g
  | .number _ => True
  | .slice b => ∀ view, b = some view → view.off + view.len ≤ g.frame.length

theorem At.of_paid {v : Value} {r : Reader} (h : Paid g b v r) : g.At b r :=
  h.2.1.mono (Nat.sub_le _ _)

theorem cpField_triple (hb : b ≤ traversalWords) (s : Value) (index : Nat) :
    Triple (g.At b) (cpField s index) (Paid g b) := by
  have hnull : Triple (g.At b) (pure {}) (Paid g b) := Triple.ret fun _ h => paid_null h
  unfold cpField
  refine Triple.get_bind fun r hr => Triple.pre (P := g.At b) ?_ fun _ h => h.2
  refine Triple.ite (fun _ => hnull) fun _ => ?_
  refine Triple.ite (fun _ => fail_triple _) fun _ => ?_
  exact Triple.ite (fun _ => hnull) fun _ => follow_triple hb _ _ _

/-- An element of an inline-composite list is inside it, one level deeper. -/
theorem Value.Within.element {list : Value} (hl : list.Within g) (hk : list.kind = .list)
    (he : list.elementSize = 7) (hd : list.depth < depthMax) {index : Nat}
    (hi : index < list.count) (hsize : ∀ seg, (g.segment seg).len ≤ messageMax) :
    Value.Within g { list with
      kind := .struct, depth := (list.depth + 1) % 2 ^ 8,
      word := (list.word + index * (list.dataWords + list.pointers)) % 2 ^ 32 } := by
  have hin := (hl (Or.inr hk)).1
  have hlen := hsize list.segment
  have hmul : (index + 1) * (list.dataWords + list.pointers) ≤
      list.count * (list.dataWords + list.pointers) := Nat.mul_le_mul_right _ hi
  rw [Nat.succ_mul] at hmul
  simp only [Reader.Inside, Value.extent, Value.start, hk, he, and_self, if_true] at hin
  unfold messageMax at hlen
  unfold depthMax at hd
  have hword : list.word + index * (list.dataWords + list.pointers) < 2 ^ 32 := by omega
  intro _
  simp only [Reader.Inside, Value.extent, Value.start, reduceCtorEq, false_and, if_false]
  rw [Nat.mod_eq_of_lt hword]
  exact ⟨⟨hin.1, by omega⟩, le_refl _, by unfold depthMax; omega⟩

theorem cpAt_triple (hb : b ≤ traversalWords) {list : Value} (hl : list.Within g)
    (hsize : ∀ seg, (g.segment seg).len ≤ messageMax) (index : Nat) :
    Triple (g.At b) (cpAt list index) fun v r =>
      g.At b r ∧ v.Within g ∧ (list.elementSize ≠ 7 → Paid g b v r) := by
  have hpaid : ∀ {v : Value} {r : Reader}, Paid g b v r →
      g.At b r ∧ v.Within g ∧ (list.elementSize ≠ 7 → Paid g b v r) :=
    fun h => ⟨At.of_paid h, h.2.2, fun _ => h⟩
  unfold cpAt
  refine Triple.get_bind fun r hr => Triple.pre (P := g.At b) ?_ fun _ h => h.2
  refine Triple.ite (fun _ => Triple.ret fun _ h => hpaid (paid_null h)) fun _ => ?_
  refine Triple.ite (fun _ => (fail_triple _).post fun _ _ => hpaid) fun hlist => ?_
  refine Triple.ite (fun _ => (follow_triple hb _ _ _).post fun _ _ => hpaid) fun _ => ?_
  refine Triple.ite (fun _ => (fail_triple _).post fun _ _ => hpaid) fun he => ?_
  refine Triple.ite (fun _ => (fail_triple _).post fun _ _ => hpaid) fun hd => ?_
  refine Triple.guard (charge_triple hb 1) ((fail_triple _).post fun _ _ => hpaid) ?_
  refine Triple.ret fun _ h => ⟨h.2, ?_, fun hne => absurd hne he⟩
  exact hl.element (by_contra fun hk => hlist (Or.inl hk)) (not_not.1 he) (by omega) (by omega) hsize

theorem cpUint_triple (hb : b ≤ traversalWords) (s : Value) (byte width : Nat) :
    Triple (g.At b) (cpUint s byte width) fun _ r => g.At b r := by
  have hret : ∀ n : Nat, Triple (g.At b) (pure n) fun _ r => g.At b r :=
    fun _ => Triple.ret fun _ h => h
  unfold cpUint
  refine Triple.get_bind fun r hr => Triple.pre (P := g.At b) ?_ fun _ h => h.2
  refine Triple.ite (fun _ => hret _) fun _ => ?_
  refine Triple.ite (fun _ => Triple.bind (setError_triple _) fun _ => hret _) fun _ => ?_
  refine Triple.ite (fun _ => hret _) fun hbyte => ?_
  refine Triple.guard (range_triple _ _ _) (hret _) (Triple.of_fact fun hin => ?_)
  refine Triple.guard (charge_triple hb _) (hret _) (Triple.pre (P := g.At b) ?_ fun _ h => h.2)
  refine Triple.bind (load_triple ⟨hin.1, ?_⟩) fun _ => hret _
  have := hin.2
  dsimp only
  omega

/-- A slice is a part of its segment, hence of the frame. -/
theorem cpData_triple (hframe : ∀ seg, seg < g.segmentCount →
      (g.segment seg).off + (g.segment seg).len ≤ g.frame.length) (v : Value) (text : Bool) :
    Triple (g.At b) (cpData v text) fun o r => g.At b r ∧ (Reply.slice o).Fine g := by
  have hnone : Triple (g.At b) (pure none) fun o r => g.At b r ∧ (Reply.slice o).Fine g :=
    Triple.ret fun _ h => ⟨h, by simp [Reply.Fine]⟩
  have hfail : Triple (g.At b) (do setError .format; return none)
      fun o r => g.At b r ∧ (Reply.slice o).Fine g :=
    Triple.bind (setError_triple _) fun _ => hnone
  unfold cpData
  refine Triple.get_bind fun r hr => Triple.pre (P := g.At b) ?_ fun _ h => h.2
  refine Triple.ite (fun _ => hnone) fun _ => ?_
  refine Triple.ite (fun _ => hfail) fun _ => ?_
  refine Triple.guard (range_triple _ _ _) hnone (Triple.of_fact fun hin => ?_)
  refine Triple.get_bind fun r hr => Triple.pre (P := g.At b) ?_ fun _ h => h.2
  have hseg := hframe _ hin.1
  have hwords := hin.2
  dsimp only
  rw [hr.segment]
  have hsome : ∀ n, n ≤ v.count → (Reply.slice (some ⟨(g.segment v.segment).off + v.word * 8, n⟩)).Fine g := by
    intro n hn view hview
    cases hview
    dsimp only
    omega
  refine Triple.ite (fun _ => Triple.ret fun _ h => ⟨h, hsome _ le_rfl⟩) fun _ => ?_
  refine Triple.ite (fun _ => hfail) fun _ => ?_
  refine Triple.bind (load_triple ⟨hin.1, by dsimp only; omega⟩) fun _ => ?_
  refine Triple.ite (fun _ => hfail) fun _ => Triple.ret fun _ h => ⟨h, hsome _ (Nat.sub_le _ _)⟩

/-- What one call promises, from a reader with at most `b` words of budget. -/
theorem Call.triple (hb : b ≤ traversalWords) (hsize : ∀ seg, (g.segment seg).len ≤ messageMax)
    (hframe : ∀ seg, seg < g.segmentCount →
      (g.segment seg).off + (g.segment seg).len ≤ g.frame.length)
    (c : Call) (harg : ∀ v, c.arg = some v → v.Within g) :
    Triple (g.At b) c.run fun reply r =>
      price (c, reply) ≤ b ∧ g.At (b - price (c, reply)) r ∧ reply.Fine g := by
  have hpaid : ∀ {v : Value} {r : Reader}, Paid g b v r →
      price (c, .value v) ≤ b ∧ g.At (b - price (c, .value v)) r ∧ (Reply.value v).Fine g := by
    intro v r h
    have hle : price (c, .value v) ≤ v.cost := by simp only [price]; split <;> omega
    exact ⟨hle.trans h.1, h.2.1.mono (by omega), h.2.2⟩
  cases c with
  | root => exact Triple.bind (follow_triple hb _ _ _) fun v => Triple.ret fun _ => hpaid
  | field s index => exact Triple.bind (cpField_triple hb s index) fun v => Triple.ret fun _ => hpaid
  | element list index =>
    refine Triple.bind (cpAt_triple hb (harg list rfl) hsize index) fun v => Triple.ret fun r h => ?_
    by_cases he : list.elementSize = 7
    · have hfree : price (.element list index, .value v) = 0 := by simp [price, Call.follows, he]
      exact ⟨by omega, by rw [hfree]; exact h.1, h.2.1⟩
    · exact hpaid (h.2.2 he)
  | uint s byte width =>
    exact Triple.bind (cpUint_triple hb s byte width) fun n => Triple.ret fun _ h =>
      ⟨Nat.zero_le _, h, trivial⟩
  | data v text =>
    exact Triple.bind (cpData_triple hframe v text) fun o => Triple.ret fun _ h =>
      ⟨Nat.zero_le _, h.1, h.2⟩

/-- After an error every call returns nothing and leaves the reader as it is. -/
theorem Call.run_of_error (c : Call) {r : Reader} (h : r.error ≠ .ok) :
    c.run r = (c.nothing, r) := by
  cases c <;> simp [Call.run, Call.nothing, cpRoot, follow, cpField, cpAt, cpUint, cpData, h]

/-! ## Accepted frames -/

/-- The reader accepts only frames, and its segments are those of the frame. -/
theorem cpReadInit_eq_ok {frame : Bytes} (h : cpReadInit frame = .ok g) :
    IsFrame messageMax frame ∧
      g = ⟨frame, segmentViews frame, segmentCount frame, traversalWords, .ok, []⟩ := by
  have hframe : IsFrame messageMax frame := by
    unfold cpReadInit capnpSegment at h
    dsimp only at h
    split at h
    · cases h
    split at h
    · cases h
    next hcount =>
    split at h
    · cases h
    split at h
    · cases h
    split at h
    · cases h
    next total htotal =>
    split at h
    · cases h
    next hlen =>
    exact ⟨by omega, by rw [htotal, not_not.1 hlen]⟩
  refine ⟨hframe, ?_⟩
  have heq := hframe.cpReadInit_eq le_rfl
  rw [h] at heq
  exact Except.ok.inj heq

/-- Every segment of an accepted frame is a part of it. -/
theorem segment_le_frame {frame : Bytes} (h : cpReadInit frame = .ok g) (seg : Nat) :
    (g.segment seg).off + (g.segment seg).len ≤ g.frame.length := by
  obtain ⟨hframe, rfl⟩ := cpReadInit_eq_ok h
  unfold Reader.segment
  dsimp only
  by_cases hseg : seg < segmentCount frame
  · rw [List.getD_eq_getElem?_getD, segmentViews, List.getElem?_map, List.getElem?_range hseg]
    have hle := hframe.offset_le (k := seg + 1) hseg
    rwa [segmentOffset_succ] at hle
  · rw [List.getD_eq_default _ _ (by rw [length_segmentViews]; omega)]
    exact Nat.zero_le _

theorem segment_len_le {frame : Bytes} (h : cpReadInit frame = .ok g) (seg : Nat) :
    (g.segment seg).len ≤ messageMax := by
  have hle := segment_le_frame h seg
  obtain ⟨hframe, rfl⟩ := cpReadInit_eq_ok h
  have := (totalSize_eq_ok.1 hframe.size).2.2
  dsimp only at hle
  omega

/-! ## Whole sessions -/

/-- The machine arithmetic on a value does not wrap for the indices the reader lets through: the
slots of its pointers, the slots or elements of a list, and the depth below it. -/
structure Value.NoWrap (v : Value) : Prop where
  field : v.kind = .struct → ∀ index, index < v.pointers → v.word + v.dataWords + index < 2 ^ 32
  slot : v.kind = .list → v.elementSize = 6 → ∀ index, index < v.count → v.word + index < 2 ^ 32
  element : v.kind = .list → v.elementSize = 7 → ∀ index, index < v.count →
    v.word + index * (v.dataWords + v.pointers) < 2 ^ 32
  depth : v.IsObject → v.depth + 1 < 2 ^ 8

theorem Value.Within.noWrap {v : Value} (h : v.Within g)
    (hsize : ∀ seg, (g.segment seg).len ≤ messageMax) : v.NoWrap := by
  have hlen := hsize v.segment
  unfold messageMax at hlen
  refine ⟨fun hk index hi => ?_, fun hk he index hi => ?_, fun hk he index hi => ?_, fun ho => ?_⟩
  · have hin := (h (Or.inl hk)).1.2
    simp only [Value.extent, Value.start, hk, reduceCtorEq, false_and, if_false] at hin
    omega
  · have hin := (h (Or.inr hk)).1.2
    have hne : v.elementSize ≠ 7 := by omega
    have hbits : elementBits v.elementSize = 64 := by rw [he]; rfl
    simp only [Value.extent, Value.start, hk, hne, hbits, and_false, if_false] at hin
    omega
  · have hin := (h (Or.inr hk)).1.2
    have hmul : index * (v.dataWords + v.pointers) ≤ v.count * (v.dataWords + v.pointers) :=
      Nat.mul_le_mul_right _ hi.le
    simp only [Value.extent, Value.start, hk, he, and_self, if_true] at hin
    omega
  · have hd := (h ho).2.2
    unfold depthMax at hd
    omega

/-- What holds after any session on the reader `g`: where it has read, what it has returned and what
that cost. -/
structure Safe (g : Reader) (log : List (Call × Reply)) (r : Reader) : Prop where
  reads : ∀ a ∈ r.reads, a.InBounds g
  segments : ∀ seg, (g.segment seg).off + (g.segment seg).len ≤ g.frame.length
  slices : ∀ c view, (c, Reply.slice (some view)) ∈ log → view.off + view.len ≤ g.frame.length
  values : ∀ c v, (c, Reply.value v) ∈ log → v.Within g ∧ v.NoWrap
  budget : (log.map price).sum + r.budget ≤ traversalWords
  sticky : r.error ≠ .ok → ∀ c : Call, c.run r = (c.nothing, r)

theorem sum_price_cons (c : Call) (reply : Reply) (log : List (Call × Reply)) :
    (((c, reply) :: log).map price).sum = price (c, reply) + (log.map price).sum := by
  simp

/-- The invariant of a session: every reply is fine, and what it cost has been paid. -/
theorem Session.invariant {frame : Bytes} (hg : cpReadInit frame = .ok g)
    {log : List (Call × Reply)} {r : Reader} (h : Session g log r) :
    (log.map price).sum ≤ traversalWords ∧ g.At (traversalWords - (log.map price).sum) r ∧
      ∀ e ∈ log, e.2.Fine g := by
  induction h with
  | init =>
    obtain ⟨-, rfl⟩ := cpReadInit_eq_ok hg
    exact ⟨Nat.zero_le _, ⟨rfl, rfl, rfl, by simp, le_rfl⟩, by simp⟩
  | call c _ harg ih =>
    rename_i log r _
    obtain ⟨hsum, hat, hfine⟩ := ih
    have hargs : ∀ v, c.arg = some v → v.Within g := by
      intro v hv
      obtain ⟨c', hmem⟩ := harg v hv
      exact hfine _ hmem
    obtain ⟨hprice, hat', hreply⟩ := Call.triple (Nat.sub_le _ _) (segment_len_le hg)
      (fun seg _ => segment_le_frame hg seg) c hargs r hat
    rw [sum_price_cons]
    refine ⟨by omega, hat'.mono (by omega), ?_⟩
    intro e he
    rcases List.mem_cons.1 he with rfl | he
    · exact hreply
    · exact hfine e he

/-- **Reader bounds safety**: after any sequence of calls on an accepted frame, each with values of
earlier calls, every byte read was in the segment it is attributed to, every slice is in the frame,
every struct and list is in one segment at an allowed depth with arithmetic that does not wrap, all
extents handed out and the budget left sum to at most the initial budget, and an error is final. -/
theorem Session.safe {frame : Bytes} (hg : cpReadInit frame = .ok g)
    {log : List (Call × Reply)} {r : Reader} (h : Session g log r) : Safe g log r := by
  obtain ⟨hsum, hat, hfine⟩ := h.invariant hg
  have hbudget := hat.budget
  refine ⟨hat.reads, segment_le_frame hg, ?_, ?_, by omega, fun he c => c.run_of_error he⟩
  · intro c view hmem
    exact hfine _ hmem view rfl
  · intro c v hmem
    have hin : v.Within g := hfine _ hmem
    exact ⟨hin, hin.noWrap (segment_len_le hg)⟩

/-- A frame whose root is a struct of one data word, read by the root and then a field of it. -/
theorem session_safe_root :
    ∃ g r v, cpReadInit ([0, 0, 0, 0, 2, 0, 0, 0] ++ [0, 0, 0, 0, 1, 0, 0, 0] ++
        [7, 0, 0, 0, 0, 0, 0, 0]) = .ok g ∧
      Session g [(.uint v 0 2, .number 7), (.root, .value v)] r ∧ r.reads.length = 2 ∧
      Safe g [(.uint v 0 2, .number 7), (.root, .value v)] r := by
  let g : Reader := ⟨[0, 0, 0, 0, 2, 0, 0, 0] ++ [0, 0, 0, 0, 1, 0, 0, 0] ++
    [7, 0, 0, 0, 0, 0, 0, 0], [⟨8, 16⟩], 1, traversalWords, .ok, []⟩
  let v : Value := { kind := .struct, word := 1, dataWords := 1, depth := 1 }
  have hg : cpReadInit g.frame = .ok g := by decide +kernel
  have hroot : (Call.run .root g).1 = .value v := by decide +kernel
  have h1 : Session g [(.root, .value v)] (Call.run .root g).2 := by
    have h := Session.call .root (Session.init (g := g)) (by simp [Call.arg])
    rwa [hroot] at h
  have huint : (Call.run (.uint v 0 2) (Call.run .root g).2).1 = .number 7 := by decide +kernel
  have h2 : Session g [(.uint v 0 2, .number 7), (.root, .value v)]
      (Call.run (.uint v 0 2) (Call.run .root g).2).2 := by
    have h := Session.call (.uint v 0 2) h1 (by simp [Call.arg])
    rwa [huint] at h
  exact ⟨g, _, v, hg, h2, by decide +kernel, Session.safe hg h2⟩

end EspCfTunnel.Capnp
