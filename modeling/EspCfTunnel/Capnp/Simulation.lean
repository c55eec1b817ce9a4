import EspCfTunnel.Capnp.Follow

/-!
# The reader simulates reading the tree

Every operation of the reader, on a value that shows a tree, returns what the operation of
`treeSource` takes out of the tree, and fails with the same error. The unary `_sees` lemmas say so
for a reader without an error; the `_sim` lemmas add the sticky error and keep count of the budget:
`Spends` bounds what a followed pointer cost by the words of its own object, and leaves the words
of the objects below it to be spent later.
-/

namespace EspCfTunnel.Capnp

open EspCfTunnel Framing StateLogic

/-- The reader reads the segments of `A`, has the error `e` and at least `B` words of budget. -/
structure Reader.Tracks (A : Arena) (B : Nat) (r : Reader) (e : Result) : Prop where
  arena : r.arena = A
  error : r.error = e
  budget : B ≤ r.budget
  bounded : r.budget ≤ traversalWords

variable {A : Arena} {K B : Nat} {α β : Type}

theorem Reader.Sees.tracks {r : Reader} (h : r.Sees A B) : r.Tracks A B .ok :=
  ⟨h.arena, h.error, h.budget, h.bounded⟩

theorem Reader.Tracks.sees {r : Reader} (h : r.Tracks A B .ok) : r.Sees A B :=
  ⟨h.arena, h.error, h.budget, h.bounded⟩

/-- After an error both sides return nothing; before one, the reader sees the segments. -/
theorem sim_of_cases {x : StateM Reader α} {y : StateM Result β} {Q : α → β → Nat → Prop} {a : α}
    {b : β} (hx : ∀ r, r.error ≠ .ok → x r = (a, r)) (hy : ∀ e, e ≠ .ok → y e = (b, e))
    (hQ : Q a b B)
    (hok : ∀ r, r.Sees A B → ∃ B', (x r).2.Tracks A B' (y .ok).2 ∧ Q (x r).1 (y .ok).1 B') :
    Sim (Reader.Tracks A) B x y Q := by
  intro r e h
  by_cases he : e = .ok
  · subst he
    exact hok r h.sees
  · rw [hx r (h.error ▸ he), hy e he]
    exact ⟨B, h, hQ⟩

/-- Both sides fail with the same error. -/
theorem Reader.Sees.fail {r : Reader} (h : r.Sees A B) (rc : Result) :
    ({ r with error := rc } : Reader).Tracks A B rc :=
  ⟨h.arena, rfl, h.budget, h.bounded⟩

/-! ## What a value shows -/

theorem Shows.kind_eq {v : Value} {t : Tree} {ys : Nat → List Extent} (h : Shows A K v t ys) :
    v.kind = t.kind := by
  cases h <;> assumption

theorem Shows.list_eq {v : Value} {t : Tree} {ys : Nat → List Extent} (h : Shows A K v t ys)
    (hk : t.kind = .list) : v.elementSize = t.elementSize ∧ v.count = t.count := by
  cases h with
  | list _ hs => exact ⟨hs, by simp [Tree.count]⟩
  | pointers _ hs hc => exact ⟨hs, hc⟩
  | composite _ hs => exact ⟨hs, by simp [Tree.count]⟩
  | _ => cases hk

section
variable {v : Value} {data : Bytes} {ps : List Tree} {ys : Nat → List Extent}
    (h : Shows A K v (.struct data ps) ys)
include h

/-- The sizes of a struct. -/
theorem Shows.shape : data.length = v.dataWords * 8 ∧ v.pointers = ps.length := by
  cases h with
  | struct _ hp => exact ⟨Mem.length_read _ _ _, hp⟩

theorem Shows.pointer {i : Nat} {c : Tree} (hc : ps[i]? = some c) :
    Denotes A K v.segment (v.word + v.dataWords + i) c (ys i) := by
  cases h with
  | struct _ _ _ hkids => exact hkids i c hc

end

/-! ## Reading data -/

/-- The number in `width` bytes of the data of a struct. -/
theorem cpUint_sees {v : Value} {ps : List Tree} {ys : Nat → List Extent} {data : Bytes}
    (h : Shows A K v (.struct data ps) ys) (hB : 1 ≤ B) (byte : Nat) {width : Nat}
    (hw : width = 1 ∨ width = 2 ∨ width = 4 ∨ width = 8) :
    Triple (Reader.Sees A B) (cpUint v byte width) fun n r =>
      n = (if byte + width > data.length then 0 else Bytes.le ((data.drop byte).take width)) ∧
        r.Sees A (B - 1) := by
  have hkind : v.kind = .struct := h.kind_eq
  cases h with
  | struct _ hp hin _ =>
    have hlen : (A.bytes v.segment v.word v.dataWords).length = v.dataWords * 8 :=
      Mem.length_read _ _ _
    unfold cpUint
    refine Triple.get_bind fun r hr => Triple.pre (P := Reader.Sees A B) ?_ fun _ h => h.2
    have hnull : v.kind ≠ .null := by rw [hkind]; exact Kind.noConfusion
    refine Triple.ite (fun he => (he.elim (absurd hr.error) fun hk => absurd hk hnull)) fun _ => ?_
    refine Triple.ite (fun he => (he.elim (absurd hkind) fun hk => absurd hk (by omega))) fun _ => ?_
    rw [hlen]
    refine Triple.ite (fun hbig => ?_) fun hfits => ?_
    · rw [if_pos hbig]
      exact Triple.ret fun r hr => ⟨rfl, hr.mono (Nat.sub_le _ _)⟩
    rw [if_neg hfits]
    refine Triple.pass (range_sees ⟨hin.1, by have := hin.2; omega⟩) ?_
    refine Triple.pass (charge_sees (n := 1) hB) ?_
    refine Triple.bind_eq (load_sees _ _ _) (Triple.ret fun r hr => ⟨?_, hr⟩)
    rw [Arena.bytes, Mem.take_drop_read _ (by omega)]

/-- The elements of a list of bytes are its bytes. -/
theorem map_element_two (seg word n : Nat) :
    (((List.range n).map (A.element seg word 2)).map fun e => UInt8.ofNat e) =
      (A.mem seg).read (word * 8) n := by
  rw [List.map_map, Mem.read]
  refine List.map_congr_left fun i _ => ?_
  simp [Arena.element, elementBits, Mem.read, Bytes.le]

/-- The last byte of a read. -/
theorem getLast?_read (m : Mem) (base : Nat) {n : Nat} (hn : n ≠ 0) :
    (m.read base n).getLast? = some (m (base + (n - 1))) := by
  rw [List.getLast?_eq_getElem?, Mem.length_read, List.getElem?_eq_getElem (by simp; omega),
    Mem.getElem_read]

theorem dropLast_read (m : Mem) (base n : Nat) :
    (m.read base n).dropLast = m.read base (n - 1) := by
  cases n with
  | zero => rfl
  | succ n => rw [Mem.read_add]; simp [Mem.read]

theorem Reader.Sees.read_segment {r : Reader} (h : r.Sees A B) (seg first n : Nat) :
    (Mem.ofBytes r.frame).read ((r.segment seg).off + first) n = (A.mem seg).read first n := by
  rw [← h.arena]
  exact (Mem.read_shift _ _ _ _).symm

/-- The slice of a list of bytes is all of it, or all but the last byte of a text; a text that does
not end in a zero byte is refused. -/
theorem cpData_sees {v : Value} (hk : v.kind = .list) (hs : v.elementSize = 2)
    (hin : A.Inside v.segment v.word ((v.count + 7) / 8)) (text : Bool) :
    Triple (Reader.Sees A B) (cpData v text) fun o r =>
      let b := (A.mem v.segment).read (v.word * 8) v.count
      (o = none ∧ text = true ∧ b.getLast? ≠ some 0 ∧ r.Tracks A B .format) ∨
        (r.Sees A B ∧ (text = true → b.getLast? = some 0) ∧
          o = some ⟨(r.segment v.segment).off + v.word * 8,
            if text then v.count - 1 else v.count⟩) := by
  have hnull : v.kind ≠ .null := by rw [hk]; exact Kind.noConfusion
  unfold cpData
  refine Triple.get_bind fun r hr => Triple.pre (P := Reader.Sees A B) ?_ fun _ h => h.2
  refine Triple.ite (fun he => (he.elim (absurd hr.error) fun h => absurd h hnull)) fun _ => ?_
  refine Triple.ite (fun he => (he.elim (absurd hk) (absurd hs))) fun _ => ?_
  refine Triple.pass (range_sees hin) ?_
  intro r hr
  cases text with
  | false => exact Or.inr ⟨hr, fun h => absurd h (by simp), rfl⟩
  | true =>
    by_cases h0 : v.count = 0
    · have hempty : (A.mem v.segment).read (v.word * 8) v.count = [] := by rw [h0]; rfl
      simp only [run_bind, run_get, Bool.not_true, Bool.false_eq_true, if_false, h0, if_true]
      refine Or.inl ⟨rfl, trivial, ?_, hr.fail _⟩
      rw [Mem.read_zero]
      simp
    · have hload : (load v.segment (v.word * 8 + (v.count - 1)) 1 r).1 =
          [A.mem v.segment (v.word * 8 + (v.count - 1))] := (load_sees _ _ _ r hr).1
      have hsees : (load v.segment (v.word * 8 + (v.count - 1)) 1 r).2.Sees A B :=
        (load_sees _ _ _ r hr).2
      simp only [run_bind, run_get, Bool.not_true, Bool.false_eq_true, if_false, h0, hload,
        getLast?_read _ _ h0, if_true]
      by_cases hz : A.mem v.segment (v.word * 8 + (v.count - 1)) = 0
      · rw [if_neg (by simp [hz])]
        exact Or.inr ⟨hsees, fun _ => by rw [hz], rfl⟩
      · rw [if_pos (by simp [hz])]
        exact Or.inl ⟨rfl, trivial, by simp [hz], hsees.fail _⟩

/-! ## Data, with errors -/

theorem readData_run {v : Value} (hk : v.kind = .list) (hs : v.elementSize = 2)
    (hin : A.Inside v.segment v.word ((v.count + 7) / 8)) (text : Bool) {r : Reader}
    (hr : r.Sees A B) :
    let b := (A.mem v.segment).read (v.word * 8) v.count
    if text = true ∧ b.getLast? ≠ some 0 then
      (readData v text r).1 = [] ∧ (readData v text r).2.Tracks A B .format
    else
      (readData v text r).1 = (if text then b.dropLast else b) ∧
        (readData v text r).2.Tracks A B .ok := by
  intro b
  rcases cpData_sees hk hs hin text r hr with ⟨hnone, htext, hlast, htracks⟩ | ⟨hsees, htext, hsome⟩
  · rw [if_pos ⟨htext, hlast⟩]
    simp only [readData, run_bind, hnone]
    exact ⟨rfl, htracks⟩
  · rw [if_neg fun h => h.2 (htext h.1)]
    simp only [readData, run_bind, hsome, run_get, run_pure]
    refine ⟨?_, hsees.tracks⟩
    rw [hsees.read_segment]
    cases text with
    | false => rfl
    | true => exact (dropLast_read _ _ _).symm

/-- The reader and the tree give the same bytes, and refuse the same. -/
theorem data_sim {v : Value} {t : Tree} {ys : Nat → List Extent} (h : Shows A K v t ys)
    (text : Bool) :
    Sim (Reader.Tracks A) B (readData v text) (t.data text) fun bs bs' B' => bs = bs' ∧ B' = B := by
  refine sim_of_cases (a := []) (b := []) (fun r hr => ?_) (fun e he => ?_) ⟨rfl, rfl⟩
    fun r hr => ⟨B, ?_⟩
  · simp [readData, cpData, hr]
  · simp [Tree.data, he]
  have hkind := h.kind_eq
  by_cases hnull : t.kind = .null
  · have hx : readData v text r = ([], r) := by simp [readData, cpData, hkind, hnull]
    have hy : t.data text .ok = ([], .ok) := by simp [Tree.data, hnull]
    rw [hx, hy]
    exact ⟨hr.tracks, rfl, rfl⟩
  by_cases hbytes : t.kind ≠ .list ∨ t.elementSize ≠ 2
  · have hcond : v.kind ≠ .list ∨ v.elementSize ≠ 2 := by
      by_cases hk : t.kind = .list
      · rw [(h.list_eq hk).1]
        exact Or.inr (hbytes.resolve_left (absurd hk))
      · exact Or.inl (hkind ▸ hk)
    have hcp : cpData v text r = (none, { r with error := .format }) := by
      unfold cpData
      rw [run_bind, run_get, if_neg (by simp [hr.error, hkind, hnull]), if_pos hcond]
      rfl
    have hx : readData v text r = ([], { r with error := .format }) := by
      rw [readData, run_bind, hcp]
      rfl
    have hy : t.data text .ok = ([], .format) := by
      unfold Tree.data
      rw [run_bind, run_get, if_neg (by simp [hnull]), if_pos hbytes]
      rfl
    rw [hx, hy]
    exact ⟨hr.fail _, rfl, rfl⟩
  have hy : t.data text .ok =
      if text = true ∧ t.octets.getLast? ≠ some 0 then ([], .format)
      else (if text then t.octets.dropLast else t.octets, .ok) := by
    unfold Tree.data
    rw [run_bind, run_get, if_neg (by simp [hnull]), if_neg hbytes]
    cases text with
    | false => simp
    | true => simp only [Bool.not_true, Bool.false_eq_true, if_false, true_and, if_true, run_ite]; rfl
  rw [hy]
  simp only [not_or, not_not] at hbytes
  cases h with
  | list hk hs hle hin =>
    obtain ⟨-, rfl⟩ := hbytes
    have hwords : (v.count * elementBits 2 + 63) / 64 = (v.count + 7) / 8 := by
      rw [show elementBits 2 = 8 from rfl]
      omega
    have hrun := readData_run hk hs (hwords ▸ hin) text hr
    rw [Tree.octets, map_element_two]
    dsimp only at hrun
    split at hrun
    · next hbad => rw [if_pos hbad]; exact ⟨hrun.2, hrun.1, rfl⟩
    · next hgood => rw [if_neg hgood]; exact ⟨hrun.2, hrun.1, rfl⟩
  | pointers => exact absurd hbytes.2 (by simp [Tree.elementSize])
  | composite => exact absurd hbytes.2 (by simp [Tree.elementSize])
  | _ => exact absurd hbytes.1 Kind.noConfusion

/-- The reader and the tree give the same numbers, and refuse the same. -/
theorem uint_sim {v : Value} {t : Tree} {ys : Nat → List Extent} (h : Shows A K v t ys)
    (byte width : Nat) (hB : 1 ≤ B) :
    Sim (Reader.Tracks A) B (cpUint v byte width) (t.uint byte width) fun n n' B' =>
      n = n' ∧ B' = B - 1 := by
  have hlow : ∀ {r : Reader} {e : Result}, r.Tracks A B e → r.Tracks A (B - 1) e :=
    fun h => { h with budget := (Nat.sub_le _ _).trans h.budget }
  intro r e hr
  refine ⟨B - 1, ?_⟩
  by_cases he : e = .ok
  case neg =>
    have hx : cpUint v byte width r = (0, r) := by simp [cpUint, hr.error, he]
    have hy : t.uint byte width e = (0, e) := by simp [Tree.uint, he]
    rw [hx, hy]
    exact ⟨hlow hr, rfl, rfl⟩
  subst he
  have hkind := h.kind_eq
  by_cases hnull : t.kind = .null
  · have hx : cpUint v byte width r = (0, r) := by simp [cpUint, hkind, hnull]
    have hy : t.uint byte width .ok = (0, .ok) := by simp [Tree.uint, hnull]
    rw [hx, hy]
    exact ⟨hlow hr, rfl, rfl⟩
  by_cases hbad : t.kind ≠ .struct ∨ (width ≠ 1 ∧ width ≠ 2 ∧ width ≠ 4 ∧ width ≠ 8)
  · have hx : cpUint v byte width r = (0, { r with error := .format }) := by
      unfold cpUint
      rw [run_bind, run_get, if_neg (by simp [hr.error, hkind, hnull]), if_pos (hkind ▸ hbad)]
      rfl
    have hy : t.uint byte width .ok = (0, .format) := by
      unfold Tree.uint
      rw [run_bind, run_get, if_neg (by simp [hnull]), if_pos hbad]
      rfl
    rw [hx, hy]
    exact ⟨hlow (hr.sees.fail _), rfl, rfl⟩
  have hy : t.uint byte width .ok = (if byte + width > t.dataBytes.length then 0
      else Bytes.le ((t.dataBytes.drop byte).take width), .ok) := by
    unfold Tree.uint
    rw [run_bind, run_get, if_neg (by simp [hnull]), if_neg hbad]
    rfl
  rw [hy]
  simp only [not_or, not_not] at hbad
  cases t with
  | struct data ps =>
    have hw : width = 1 ∨ width = 2 ∨ width = 4 ∨ width = 8 := by omega
    obtain ⟨hn, hsees⟩ := cpUint_sees h hB byte hw r hr.sees
    exact ⟨hsees.tracks, hn, rfl⟩
  | _ => exact absurd hbad.1 Kind.noConfusion

/-! ## Following pointers -/

section
variable (hA : ∀ seg, A.words seg < 2 ^ 32)
include hA

/-- A pointer field of a struct shows its child. -/
theorem cpField_sees {v : Value} {data : Bytes} {ps : List Tree} {ys : Nat → List Extent}
    (h : Shows A K v (.struct data ps) ys) {i : Nat} {c : Tree} (hc : ps[i]? = some c)
    (hd : v.depth + 1 ≤ depthMax) (hB : fee K (ys i) ≤ B) :
    Triple (Reader.Sees A B) (cpField v i) fun u r =>
      (∃ zs, Shows A K u c zs ∧ Below c.kids.length (ys i) zs ∧ u.depth ≤ v.depth + 1) ∧
        r.Sees A (B - fee K (ys i)) := by
  have hkind : v.kind = .struct := h.kind_eq
  have hnull : v.kind ≠ .null := by rw [hkind]; exact Kind.noConfusion
  cases h with
  | struct _ hp hin hkids =>
    have hi := (List.getElem?_eq_some_iff.1 hc).1
    have hword : v.word + v.dataWords + i < 2 ^ 32 := by
      have := hin.2
      have := hA v.segment
      omega
    have hdepth : v.depth + 1 < 2 ^ 8 := by
      unfold depthMax at hd
      omega
    unfold cpField
    refine Triple.get_bind fun r hr => Triple.pre (P := Reader.Sees A B) ?_ fun _ h => h.2
    refine Triple.ite (fun he => (he.elim (absurd hr.error) fun h => absurd h hnull)) fun _ => ?_
    refine Triple.ite (fun he => absurd hkind he) fun _ => ?_
    refine Triple.ite (fun hout => absurd hout (by omega)) fun _ => ?_
    rw [Nat.mod_eq_of_lt hword, Nat.mod_eq_of_lt hdepth]
    exact follow_sees hA (hkids i c hc) hd hB

/-- An element of a list of pointers shows its tree. -/
theorem cpAt_pointers_sees {v : Value} {es : List Tree} {ys : Nat → List Extent}
    (h : Shows A K v (.pointers es) ys) {i : Nat} {c : Tree} (hc : es[i]? = some c)
    (hd : v.depth + 1 ≤ depthMax) (hB : fee K (ys i) ≤ B) :
    Triple (Reader.Sees A B) (cpAt v i) fun u r =>
      (∃ zs, Shows A K u c zs ∧ Below c.kids.length (ys i) zs ∧ u.depth ≤ v.depth + 1) ∧
        r.Sees A (B - fee K (ys i)) := by
  have hkind : v.kind = .list := h.kind_eq
  cases h with
  | pointers _ hsize hcount hin hkids =>
    have hi := (List.getElem?_eq_some_iff.1 hc).1
    have hword : v.word + i < 2 ^ 32 := by
      have := hin.2
      have := hA v.segment
      omega
    have hdepth : v.depth + 1 < 2 ^ 8 := by
      unfold depthMax at hd
      omega
    unfold cpAt
    refine Triple.get_bind fun r hr => Triple.pre (P := Reader.Sees A B) ?_ fun _ h => h.2
    refine Triple.ite (fun he => absurd hr.error he) fun _ => ?_
    refine Triple.ite (fun he => (he.elim (absurd hkind) fun h => absurd h (by omega))) fun _ => ?_
    refine Triple.ite (fun _ => ?_) fun hne => absurd hsize hne
    rw [Nat.mod_eq_of_lt hword, Nat.mod_eq_of_lt hdepth]
    exact follow_sees hA (hkids i c hc) hd hB

end

/-! ## Following pointers, with errors -/

/-- The words of the objects below the first `n` pointers or elements. -/
def wordsBelow (ys : Nat → List Extent) (n : Nat) : Nat :=
  ((List.range n).map fun i => totalWords (ys i)).sum

/-- What a step down the tree gives: a value that shows the subtree, one level deeper at most, for
the price of its own object; what is below that object remains to be paid. -/
def Reached (A : Arena) (K d B : Nat) (xs : List Extent) (v : Value) (t : Tree) (B' : Nat) : Prop :=
  ∃ ys own, Shows A K v t ys ∧ v.depth ≤ d ∧ B ≤ B' + (K + 2 + own) ∧
    ∀ n, own + wordsBelow ys n ≤ totalWords xs

theorem wordsBelow_succ (ys : Nat → List Extent) (n : Nat) :
    wordsBelow ys (n + 1) = wordsBelow ys n + totalWords (ys n) := by
  simp [wordsBelow, List.range_succ]

theorem totalWords_flatMap (ys : Nat → List Extent) (n : Nat) :
    totalWords ((List.range n).flatMap ys) = wordsBelow ys n := by
  induction n with
  | zero => rfl
  | succ n ih =>
    rw [wordsBelow_succ, ← ih]
    simp [List.range_succ, totalWords]

/-- Nothing is below the pointers a value does not have. -/
theorem wordsBelow_le {ys : Nat → List Extent} {n : Nat} (h : ∀ i, n ≤ i → ys i = []) (m : Nat) :
    wordsBelow ys m ≤ wordsBelow ys n := by
  have hmono : ∀ k, wordsBelow ys m ≤ wordsBelow ys (m + k) := by
    intro k
    induction k with
    | zero => exact le_rfl
    | succ k ih => rw [← Nat.add_assoc, wordsBelow_succ]; omega
  have hzero : ∀ k, wordsBelow ys (n + k) = wordsBelow ys n := by
    intro k
    induction k with
    | zero => rfl
    | succ k ih => rw [← Nat.add_assoc, wordsBelow_succ, ih, h _ (by omega)]; rfl
  rcases Nat.le_total m n with hmn | hmn
  · obtain ⟨k, rfl⟩ := Nat.exists_eq_add_of_le hmn
    exact hmono k
  · obtain ⟨k, rfl⟩ := Nat.exists_eq_add_of_le hmn
    exact (hzero k).le

theorem Below.le {n : Nat} {xs : List Extent} {ys : Nat → List Extent} (h : Below n xs ys)
    (m : Nat) : wordsBelow ys m ≤ totalWords xs.tail := by
  rw [h.2, totalWords_flatMap]
  exact wordsBelow_le h.1 m

/-- Nothing is reached after an error, and for an absent pointer. -/
theorem reached_null {d B : Nat} {xs : List Extent} : Reached A K d B xs {} .null B :=
  ⟨_, 0, .null rfl, Nat.zero_le _, by omega, fun n => by simp [wordsBelow, totalWords]⟩

/-- A pointer followed for its fee. -/
theorem reached_of_fee {d : Nat} {xs : List Extent} {v : Value} {t : Tree} {ys : Nat → List Extent}
    {n : Nat} (h : Shows A K v t ys) (hb : Below n xs ys) (hd : v.depth ≤ d) (hB : fee K xs ≤ B) :
    Reached A K d B xs v t (B - fee K xs) := by
  cases xs with
  | nil =>
    refine ⟨ys, 0, h, hd, ?_, fun m => ?_⟩
    · rw [fee_nil]
      omega
    · have := hb.le m
      rwa [Nat.zero_add]
  | cons x xs =>
    refine ⟨ys, x.words, h, hd, ?_, fun m => ?_⟩
    · rw [fee_cons] at *
      omega
    · have := hb.le m
      simp only [List.tail_cons, totalWords] at this
      simp only [totalWords, List.map_cons, List.sum_cons]
      omega

theorem one_le_depthMax : 1 ≤ depthMax := by decide

theorem fee_le (xs : List Extent) : fee K xs ≤ K + 2 + totalWords xs := by
  cases xs with
  | nil => rw [fee_nil]; omega
  | cons x xs =>
    rw [fee_cons]
    simp only [totalWords, List.map_cons, List.sum_cons]
    omega

section
variable (hA : ∀ seg, A.words seg < 2 ^ 32)
include hA

/-- The root shows the tree the frame denotes. -/
theorem root_sim {t : Tree} {xs : List Extent} (h : Denotes A K 0 0 t xs)
    (hB : K + 2 + totalWords xs ≤ B) :
    Sim (Reader.Tracks A) B cpRoot t.give (Reached A K 1 B xs) := by
  have hfee := (fee_le xs).trans hB
  refine sim_of_cases (fun r hr => ?_) (fun e he => ?_) reached_null fun r hr => ?_
  · simp [cpRoot, follow, hr]
  · simp [Tree.give, he]
  · obtain ⟨⟨ys, hshow, hbelow, hd⟩, hsees⟩ := follow_sees hA h one_le_depthMax hfee r hr
    exact ⟨_, hsees.tracks, reached_of_fee hshow hbelow hd hfee⟩

/-- A pointer field shows the child of the tree; an absent one is null on both sides. -/
theorem field_sim {v : Value} {t : Tree} {ys : Nat → List Extent} (h : Shows A K v t ys) {d : Nat}
    (hd : v.depth ≤ d) (hmax : d + 1 ≤ depthMax) (i : Nat) (hB : K + 2 + totalWords (ys i) ≤ B) :
    Sim (Reader.Tracks A) B (cpField v i) (t.field i) (Reached A K (d + 1) B (ys i)) := by
  have hfee := (fee_le (ys i)).trans hB
  refine sim_of_cases (fun r hr => ?_) (fun e he => ?_) reached_null fun r hr => ?_
  · simp [cpField, hr]
  · simp [Tree.field, he]
  have hkind := h.kind_eq
  by_cases hnull : t.kind = .null
  · have hx : cpField v i r = ({}, r) := by simp [cpField, hkind, hnull]
    have hy : t.field i .ok = (.null, .ok) := by simp [Tree.field, hnull]
    rw [hx, hy]
    exact ⟨B, hr.tracks, reached_null⟩
  by_cases hbad : t.kind ≠ .struct
  · have hx : cpField v i r = ({}, { r with error := .format }) := by
      unfold cpField
      rw [run_bind, run_get, if_neg (by simp [hr.error, hkind, hnull]), if_pos (hkind ▸ hbad)]
      rfl
    have hy : t.field i .ok = (.null, .format) := by
      unfold Tree.field
      rw [run_bind, run_get, if_neg (by simp [hnull]), if_pos hbad]
      rfl
    rw [hx, hy]
    exact ⟨B, hr.fail _, reached_null⟩
  have hy : t.field i .ok = (t.kids.getD i .null, .ok) := by
    unfold Tree.field
    rw [run_bind, run_get, if_neg (by simp [hnull]), if_neg hbad]
    rfl
  rw [hy]
  cases t with
  | struct data ps =>
    rcases Nat.lt_or_ge i ps.length with hi | hi
    · have hc : ps[i]? = some ps[i] := List.getElem?_eq_getElem hi
      obtain ⟨⟨zs, hshow, hbelow, hdepth⟩, hsees⟩ := cpField_sees hA h hc (by omega) hfee r hr
      refine ⟨_, hsees.tracks, ?_⟩
      rw [Tree.kids, List.getD_eq_getElem _ _ hi]
      exact reached_of_fee hshow hbelow (by omega) hfee
    · have hp : v.pointers = ps.length := by cases h with | struct _ hp => exact hp
      have hx : cpField v i r = ({}, r) := by
        unfold cpField
        rw [run_bind, run_get, if_neg (by simp [hr.error, hkind, hnull]),
          if_neg (by rw [hkind]; exact hbad), if_pos (by omega)]
        rfl
      rw [hx, Tree.kids, List.getD_eq_default _ _ hi]
      exact ⟨B, hr.tracks, reached_null⟩
  | _ => exact absurd Kind.noConfusion hbad

end

end EspCfTunnel.Capnp
