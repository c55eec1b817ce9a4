import EspCfTunnel.Capnp.Tree
import EspCfTunnel.Lib.Simulation
import Mathlib.Data.List.Basic

/-!
# The reader meets the encoding

Where the bytes denote a tree, the reader returns it. `Reader.Sees A B r` says that `r` reads the
segments of `A`, has no error and has at least `B` words of budget left. From such a reader,
following a pointer that denotes a tree gives a value that shows it (`Shows`) and costs exactly
`fee`: one word for the pointer, the landing pad, and the extent of the object (`follow_triple`).
-/

namespace EspCfTunnel.Capnp

open EspCfTunnel Framing StateLogic

/-- The reader reads the segments of `A`, has no error, and has at least `B` words left. -/
structure Reader.Sees (A : Arena) (B : Nat) (r : Reader) : Prop where
  arena : r.arena = A
  error : r.error = .ok
  budget : B ≤ r.budget
  bounded : r.budget ≤ traversalWords

section
variable {A : Arena} {B : Nat}

theorem Reader.Sees.inside {r : Reader} (h : r.Sees A B) {seg word n : Nat}
    (hin : A.Inside seg word n) : seg < r.segmentCount ∧ word + n ≤ (r.segment seg).len / 8 := by
  obtain ⟨rfl, -, -, -⟩ := h
  exact hin

theorem Reader.Sees.mono {r : Reader} (h : r.Sees A B) {B' : Nat} (hB : B' ≤ B) : r.Sees A B' :=
  { h with budget := hB.trans h.budget }

/-! ## Primitives -/

theorem range_sees {seg word n : Nat} (hin : A.Inside seg word n) :
    Triple (Reader.Sees A B) (range seg word n) fun ok r => ok = true ∧ r.Sees A B := by
  refine Triple.get_bind fun r hr => ?_
  refine Triple.ite (fun he => absurd hr.error he) fun _ => ?_
  refine Triple.ite (fun hout => ?_) fun _ => Triple.ret fun s hs => ⟨rfl, hs.2⟩
  obtain ⟨hseg, hword⟩ := hr.inside hin
  omega

theorem charge_sees {n : Nat} (hB : max 1 n ≤ B) :
    Triple (Reader.Sees A B) (charge n) fun ok r => ok = true ∧ r.Sees A (B - max 1 n) := by
  have hpay : (if n = 0 then 1 else n) = max 1 n := by split <;> omega
  unfold charge
  dsimp only
  rw [hpay]
  refine Triple.get_bind fun r hr => ?_
  have hb := hr.budget
  have ht := hr.bounded
  unfold traversalWords at ht
  have hleft : (r.budget + 2 ^ 32 - max 1 n % 2 ^ 32) % 2 ^ 32 = r.budget - max 1 n := by omega
  refine Triple.ite (fun hlt => absurd hlt (by omega)) fun _ s _ => ?_
  simp only [run_bind, run_set, run_pure, hleft, true_and]
  exact { hr with budget := Nat.sub_le_sub_right hb _, bounded := (Nat.sub_le _ _).trans hr.bounded }

theorem load_sees (seg first n : Nat) :
    Triple (Reader.Sees A B) (load seg first n) fun bs r =>
      bs = (A.mem seg).read first n ∧ r.Sees A B := by
  intro r h
  refine ⟨?_, { h with arena := h.arena }⟩
  rw [← h.arena]
  exact (Mem.read_shift _ _ _ _).symm

theorem wordAt_sees {seg word : Nat} (hin : A.Inside seg word 1) :
    Triple (Reader.Sees A B) (wordAt seg word) fun p r => p = A.word seg word ∧ r.Sees A B := by
  unfold wordAt
  refine Triple.pass (range_sees hin) ?_
  exact Triple.bind_eq (load_sees _ _ _) (Triple.ret fun _ h => ⟨rfl, h⟩)

end

/-! ## Values that show a tree -/

/-- Extents cut off after the last child. -/
def cut (n : Nat) (xs : Nat → List Extent) (i : Nat) : List Extent := if i < n then xs i else []

section
variable (A : Arena) (K : Nat)

/-- The value stands for the tree; `xs i` are the extents below its pointer or element `i`. -/
inductive Shows (v : Value) : Tree → (Nat → List Extent) → Prop
  | null : v.kind = .null → Shows v .null fun _ => []
  | cap {id : Nat} : v.kind = .cap → v.cap = id → Shows v (.cap id) fun _ => []
  | struct {ps : List Tree} {xs : Nat → List Extent} : v.kind = .struct →
      v.pointers = ps.length → A.Inside v.segment v.word (v.dataWords + ps.length) →
      (∀ i t, ps[i]? = some t → Denotes A K v.segment (v.word + v.dataWords + i) t (xs i)) →
      Shows v (.struct (A.bytes v.segment v.word v.dataWords) ps) xs
  | list {size : Nat} : v.kind = .list → v.elementSize = size → size ≤ 5 →
      A.Inside v.segment v.word ((v.count * elementBits size + 63) / 64) →
      Shows v (.list size ((List.range v.count).map (A.element v.segment v.word size))) fun _ => []
  | pointers {es : List Tree} {xs : Nat → List Extent} : v.kind = .list → v.elementSize = 6 →
      v.count = es.length → A.Inside v.segment v.word es.length →
      (∀ i t, es[i]? = some t → Denotes A K v.segment (v.word + i) t (xs i)) →
      Shows v (.pointers es) xs
  | composite {kids : Nat → List Tree} {xs : Nat → Nat → List Extent} : v.kind = .list →
      v.elementSize = 7 →
      A.Inside v.segment v.word (v.count * (v.dataWords + v.pointers)) →
      (∀ i, i < v.count → (kids i).length = v.pointers) →
      (∀ i j t, i < v.count → (kids i)[j]? = some t → Denotes A K v.segment
        (v.word + i * (v.dataWords + v.pointers) + v.dataWords + j) t (xs i j)) →
      Shows v (.composite ((List.range v.count).map fun i => .struct
        (A.bytes v.segment (v.word + i * (v.dataWords + v.pointers)) v.dataWords) (kids i)))
        (cut v.count fun i => (List.range v.pointers).flatMap (xs i))

/-- What following a pointer costs: the pointer, its landing pad, and the extent of its object. -/
def fee : List Extent → Nat
  | [] => 1
  | x :: _ => 1 + K + max 1 x.words

@[simp] theorem fee_nil : fee K [] = 1 := rfl

@[simp] theorem fee_cons (x : Extent) (xs : List Extent) :
    fee K (x :: xs) = 1 + K + max 1 x.words := rfl

/-- The extents below the pointers or elements of a value, as parts of all extents of its tree. -/
def Below (n : Nat) (xs : List Extent) (ys : Nat → List Extent) : Prop :=
  (∀ i, n ≤ i → ys i = []) ∧ xs.tail = (List.range n).flatMap ys

end

variable {A : Arena} {K B : Nat}

/-- The landing pads of a resolved pointer are read and paid for. -/
theorem landingPad_sees {seg slot p oseg w : Nat} (h : Points A K seg slot p oseg w)
    (hB : K ≤ B) :
    Triple (Reader.Sees A B) (landingPad seg slot (A.word seg slot)) fun o r =>
      (∃ t, o = some t ∧ t.p = p ∧ t.seg = oseg ∧ t.word = w) ∧ r.Sees A (B - K) := by
  unfold landingPad
  cases h with
  | near hin hp hne hkind hw =>
    refine Triple.ite (fun _ => ?_) fun hfar => absurd hfar (by omega)
    refine Triple.ret fun r hr => ⟨⟨_, rfl, hp, rfl, ?_⟩, hr.mono (Nat.sub_le _ _)⟩
    subst hp
    exact hw.symm
  | far hK hin hq hfar htwo hseg hpad hpin hp hne hkind hw =>
    subst hq hseg hpad hp
    refine Triple.ite (fun hnear => absurd hfar hnear) fun _ => ?_
    simp only [htwo, zero_ne_one, if_false]
    refine Triple.pass (range_sees hpin) ?_
    refine Triple.pass (charge_sees (n := 1) (by omega)) ?_
    refine Triple.bind_eq (wordAt_sees hpin) ?_
    refine Triple.ite (fun hbad => absurd hbad (by omega)) fun _ => ?_
    exact Triple.ret fun r hr => ⟨⟨_, rfl, rfl, rfl, hw.symm⟩, hr.mono (by omega)⟩
  | doubleFar hK hin hq hfar htwo hseg hpad hpin hf hf8 hp hoff hkind =>
    subst hq hseg hpad hf hp
    refine Triple.ite (fun hnear => absurd hfar hnear) fun _ => ?_
    simp only [htwo, if_true]
    refine Triple.pass (range_sees hpin) ?_
    refine Triple.pass (charge_sees (n := 2) (by omega)) ?_
    refine Triple.bind_eq (wordAt_sees ⟨hpin.1, by have := hpin.2; omega⟩) ?_
    refine Triple.bind_eq (wordAt_sees ⟨hpin.1, by have := hpin.2; omega⟩) ?_
    refine Triple.ite (fun hbad => absurd hbad (by omega)) fun _ => ?_
    exact Triple.ret fun r hr => ⟨⟨_, rfl, rfl, rfl, rfl⟩, hr.mono (by omega)⟩

/-- An object whose words are inside and paid for is returned. -/
theorem extent_sees {v : Value} {n : Nat} (hin : A.Inside v.segment v.word n) (hB : max 1 n ≤ B) :
    Triple (Reader.Sees A B) (extent v n) fun u r => u = v ∧ r.Sees A (B - max 1 n) := by
  unfold extent
  refine Triple.pass (range_sees hin) ?_
  exact Triple.pass (charge_sees hB) (Triple.ret fun _ h => ⟨rfl, h⟩)

/-- The value of an inline-composite list is read off its tag. -/
theorem composite_sees {v : Value} {tag count dw pc : Nat}
    (hin : A.Inside v.segment v.word (v.count + 1)) (htag : A.word v.segment v.word = tag)
    (hkind : tag % 4 = 0) (hcount : tag % 2 ^ 32 / 4 = count) (hdw : tag / 2 ^ 32 % 2 ^ 16 = dw)
    (hpc : tag / 2 ^ 48 = pc) (hfit : count * (dw + pc) ≤ v.count) (hB : v.count + 1 ≤ B) :
    Triple (Reader.Sees A B) (composite v) fun u r =>
      u = { v with word := v.word + 1, count, dataWords := dw, pointers := pc } ∧
        r.Sees A (B - (v.count + 1)) := by
  unfold composite
  refine Triple.pass (range_sees hin) ?_
  refine Triple.bind_eq (wordAt_sees ⟨hin.1, by have := hin.2; omega⟩) ?_
  rw [htag]
  refine Triple.ite (fun hbad => absurd hkind hbad) fun _ => ?_
  rw [hcount, hdw, hpc]
  refine Triple.ite (fun hbad => absurd hbad (by dsimp only; omega)) fun _ => ?_
  refine Triple.pass (charge_sees (by omega)) (Triple.ret fun _ h => ⟨rfl, ?_⟩)
  exact h.mono (by omega)

/-- The part of `follow` before the pointer is resolved: the word is read and paid for. -/
theorem follow_head {seg slot depth : Nat} {Q : Value → Reader → Prop} (hd : depth ≤ depthMax)
    (hin : A.Inside seg slot 1) (hB : 1 ≤ B)
    (hnull : A.word seg slot = 0 → ∀ r, r.Sees A (B - 1) → Q {} r)
    (hrest : A.word seg slot ≠ 0 → Triple (Reader.Sees A (B - 1)) (do
      match ← landingPad seg slot (A.word seg slot) with
      | none => return {}
      | some t => object t depth) Q) :
    Triple (Reader.Sees A B) (follow seg slot depth) Q := by
  unfold follow
  refine Triple.get_bind fun r hr => Triple.pre (P := Reader.Sees A B) ?_ fun _ h => h.2
  refine Triple.ite (fun he => absurd hr.error he) fun _ => ?_
  refine Triple.ite (fun hdeep => absurd hdeep (by omega)) fun _ => ?_
  refine Triple.bind_eq (wordAt_sees hin) ?_
  refine Triple.get_bind fun r hr => Triple.pre (P := Reader.Sees A B) ?_ fun _ h => h.2
  refine Triple.ite (fun he => absurd hr.error he) fun _ => ?_
  refine Triple.pass (charge_sees (n := 1) hB) ?_
  exact Triple.ite (fun h0 => Triple.ret (hnull h0)) fun h0 => hrest h0

/-- The pointer of an object is not null, so it is resolved and the object is looked at. -/
theorem follow_points (hA : ∀ seg, A.words seg < 2 ^ 32) {seg slot p oseg w depth n : Nat}
    {Q : Value → Reader → Prop} (h : Points A K seg slot p oseg w) (hd : depth ≤ depthMax)
    (hin : A.Inside oseg w n) (hB : 1 + K ≤ B)
    (hstruct : p % 4 = 0 → Triple (Reader.Sees A (B - (1 + K)))
      (extent { kind := .struct, segment := oseg, word := w, depth,
                dataWords := p / 2 ^ 32 % 2 ^ 16, pointers := p / 2 ^ 48 }
        (p / 2 ^ 32 % 2 ^ 16 + p / 2 ^ 48)) Q)
    (hlist : p % 4 = 1 → Triple (Reader.Sees A (B - (1 + K)))
      (let v : Value := { kind := .list, segment := oseg, word := w, depth,
                          elementSize := p / 2 ^ 32 % 8, count := p / 2 ^ 35 }
        if v.elementSize = 7 then composite v
        else extent v ((v.count * elementBits v.elementSize + 63) / 64)) Q) :
    Triple (Reader.Sees A B) (follow seg slot depth) Q := by
  have hslot : A.Inside seg slot 1 ∧ A.word seg slot ≠ 0 ∧ p % 4 ≤ 1 := by
    cases h with
    | near hslot hp hne hkind => exact ⟨hslot, hp ▸ hne, hkind⟩
    | far _ hslot hq hfar _ _ _ _ _ _ hkind => exact ⟨hslot, by omega, hkind⟩
    | doubleFar _ hslot hq hfar _ _ _ _ _ _ _ _ hkind => exact ⟨hslot, by omega, hkind⟩
  refine follow_head hd hslot.1 (by omega) (fun h0 => absurd h0 hslot.2.1) fun _ => ?_
  refine Triple.bind (landingPad_sees h (by omega)) fun o => ?_
  refine Triple.of_fact fun ho => ?_
  obtain ⟨t, rfl, rfl, rfl, hw⟩ := ho
  have hword := hA t.seg
  have hend := hin.2
  rw [show B - 1 - K = B - (1 + K) by omega]
  dsimp only
  unfold object
  refine Triple.ite (fun hcap => absurd hcap (by omega)) fun _ => ?_
  refine Triple.ite (fun hout => absurd hout (by omega)) fun _ => ?_
  simp only [hw, Int.toNat_natCast]
  refine Triple.ite hstruct fun h0 => ?_
  exact Triple.ite hlist fun h1 => absurd hslot.2.2 (by omega)

theorem cut_of_getElem? {α : Type} {l : List α} {a : α} {i : Nat} (xs : Nat → List Extent)
    (h : l[i]? = some a) : cut l.length xs i = xs i :=
  if_pos (List.getElem?_eq_some_iff.1 h).1

theorem cut_of_ge {n i : Nat} (xs : Nat → List Extent) (h : n ≤ i) : cut n xs i = [] :=
  if_neg (by omega)

theorem flatMap_cut (n : Nat) (xs : Nat → List Extent) :
    (List.range n).flatMap xs = (List.range n).flatMap (cut n xs) :=
  List.flatMap_congr fun _ hi => (if_pos (List.mem_range.1 hi)).symm

theorem below_cut (x : Extent) (n : Nat) (xs : Nat → List Extent) :
    Below n (x :: (List.range n).flatMap xs) (cut n xs) :=
  ⟨fun _ => cut_of_ge xs, flatMap_cut n xs⟩

theorem div_elementBits_six (n : Nat) : (n * elementBits 6 + 63) / 64 = n := by
  rw [show elementBits 6 = 64 from rfl]
  omega

/-- **Following a pointer that denotes a tree** gives a value that shows the tree, at the depth asked
for, and costs exactly the fee of the tree. -/
theorem follow_sees (hA : ∀ seg, A.words seg < 2 ^ 32) {seg slot depth : Nat} {t : Tree}
    {xs : List Extent} (h : Denotes A K seg slot t xs) (hd : depth ≤ depthMax)
    (hB : fee K xs ≤ B) :
    Triple (Reader.Sees A B) (follow seg slot depth) fun v r =>
      (∃ ys, Shows A K v t ys ∧ Below t.kids.length xs ys ∧ v.depth ≤ depth) ∧
        r.Sees A (B - fee K xs) := by
  cases h with
  | null hin h0 =>
    refine follow_head hd hin hB (fun _ r hr => ⟨⟨_, .null rfl, ⟨fun _ _ => rfl, rfl⟩, ?_⟩, hr⟩)
      fun hne => absurd h0 hne
    exact Nat.zero_le _
  | cap hin hp =>
    refine follow_head hd hin hB (fun h0 => by omega) fun _ => ?_
    have hland : landingPad seg slot (A.word seg slot) =
        pure (some ⟨A.word seg slot, seg, slot, false⟩) := if_pos (by omega)
    rw [hland, pure_bind]
    unfold object
    refine Triple.ite (fun _ => ?_) fun hne => absurd hne (by dsimp only; omega)
    refine Triple.ite (fun hbad => absurd hbad (by dsimp only; omega)) fun _ => ?_
    refine Triple.ret fun r hr => ⟨⟨_, .cap rfl ?_, ⟨fun _ _ => rfl, rfl⟩, le_rfl⟩, hr⟩
    dsimp only
    omega
  | struct hpt hk hdw hpc hin hkids =>
    subst hdw
    simp only [fee_cons] at hB ⊢
    refine follow_points hA hpt hd hin (by omega) (fun _ => ?_) fun h1 => absurd h1 (by omega)
    rw [hpc]
    refine (extent_sees hin (by omega)).post fun v r hr => ?_
    obtain ⟨rfl, hr⟩ := hr
    refine ⟨⟨_, .struct rfl rfl hin ?_, below_cut _ _ _, le_rfl⟩, hr.mono (by omega)⟩
    intro i t ht
    exact (cut_of_getElem? _ ht).symm ▸ hkids i t ht
  | list hpt hk hsize hle hn hin =>
    subst hsize hn
    simp only [fee_cons] at hB ⊢
    refine follow_points hA hpt hd hin (by omega) (fun h0 => absurd h0 (by omega)) fun _ => ?_
    dsimp only
    rw [if_neg (by omega)]
    refine (extent_sees hin (by omega)).post fun v r hr => ?_
    obtain ⟨rfl, hr⟩ := hr
    exact ⟨⟨_, .list rfl rfl hle hin, ⟨fun _ _ => rfl, rfl⟩, le_rfl⟩, hr.mono (by omega)⟩
  | pointers hpt hk hsize hn hin hkids =>
    simp only [fee_cons] at hB ⊢
    refine follow_points hA hpt hd hin (by omega) (fun h0 => absurd h0 (by omega)) fun _ => ?_
    dsimp only
    rw [if_neg (by omega), hsize, hn, div_elementBits_six]
    refine (extent_sees hin (by omega)).post fun v r hr => ?_
    obtain ⟨rfl, hr⟩ := hr
    refine ⟨⟨_, .pointers rfl rfl rfl hin ?_, below_cut _ _ _, le_rfl⟩, hr.mono (by omega)⟩
    intro i t ht
    exact (cut_of_getElem? _ ht).symm ▸ hkids i t ht
  | composite hpt hk hsize hn hin htag hkind hcount hdw hpc hfit hlen hkids =>
    simp only [fee_cons] at hB ⊢
    refine follow_points hA hpt hd hin (by omega) (fun h0 => absurd h0 (by omega)) fun _ => ?_
    dsimp only
    rw [if_pos hsize, hsize, hn]
    refine Triple.post (composite_sees ?_ htag hkind hcount hdw hpc hfit ?_) fun v r hr => ?_
    · exact hin
    · dsimp only
      omega
    obtain ⟨rfl, hr⟩ := hr
    have hwords := hin.2
    refine ⟨⟨_, .composite rfl rfl ⟨hin.1, ?_⟩ hlen hkids, ?_, le_rfl⟩, hr.mono ?_⟩
    · dsimp only
      omega
    · rw [Tree.kids, List.length_map, List.length_range]
      exact below_cut _ _ _
    · dsimp only
      omega

end EspCfTunnel.Capnp
