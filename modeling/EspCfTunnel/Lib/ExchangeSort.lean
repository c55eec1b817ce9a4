import Mathlib.Data.List.GetD
import Mathlib.Order.Lattice
import Mathlib.Order.Nat
import Mathlib.Tactic.Common

/-!
# Sorting by exchanges

Two nested loops over the indices of a list exchange the entries `i < j` whenever the later one has
the smaller key. After the inner loop the entry `i` has the least key of all from there on
(`Least`), and no later exchange touches what is in front (`Front`).
-/

namespace ExchangeSort

variable {α κ : Type} [LinearOrder κ] {key : α → κ} {d : α} {l : List α} {i j : Nat}

/-- Entries `i` and `j` change places if the later one has the smaller key. -/
def exchange (key : α → κ) (d : α) (i : Nat) (l : List α) (j : Nat) : List α :=
  if key (l.getD j d) < key (l.getD i d) then (l.set i (l.getD j d)).set j (l.getD i d) else l

/-- All pairs of indices, in the order of the loops. -/
def sort (key : α → κ) (d : α) (l : List α) : List α :=
  (List.range l.length).foldl
    (fun l i => (List.range' (i + 1) (l.length - (i + 1))).foldl (exchange key d i) l) l

/-- What a counted loop preserves from one index to the next holds at its end. -/
theorem foldl_range' {β : Type} {P : Nat → β → Prop} {f : β → Nat → β} {s n : Nat} {x : β}
    (h : ∀ j y, s ≤ j → j < s + n → P j y → P (j + 1) (f y j)) (hx : P s x) :
    P (s + n) ((List.range' s n).foldl f x) := by
  induction n generalizing s x with
  | zero => exact hx
  | succ n ih =>
    rw [List.range'_succ, List.foldl_cons, show s + (n + 1) = s + 1 + n by omega]
    exact ih (fun j y hj hn => h j y (by omega) (by omega)) (h s x (le_refl _) (by omega) hx)

/-! ## One exchange -/

theorem exchange_perm (hi : i < l.length) (hj : j < l.length) : (exchange key d i l j).Perm l := by
  rw [exchange]
  split
  · rw [List.getD_eq_getElem _ _ hi, List.getD_eq_getElem _ _ hj]
    exact List.set_set_perm hi hj
  · exact .refl _

/-- The entries after an exchange. -/
theorem getD_exchange (hi : i < l.length) (hij : i < j) (hj : j < l.length) (b : Nat) :
    (exchange key d i l j).getD b d =
      if key (l.getD j d) < key (l.getD i d) then
        if b = j then l.getD i d else if b = i then l.getD j d else l.getD b d
      else l.getD b d := by
  rw [exchange]
  split
  · by_cases hbj : b = j
    · subst hbj
      rw [if_pos rfl, List.getD_eq_getElem _ _ (by simpa using hj), List.getElem_set_self]
    · rw [if_neg hbj]
      by_cases hbi : b = i
      · subst hbi
        rw [if_pos rfl, List.getD_eq_getElem _ _ (by simpa using hi), List.getElem_set_ne (by omega),
          List.getElem_set_self]
      · rw [if_neg hbi, List.getD_eq_getElem?_getD, List.getElem?_set_ne (by omega),
          List.getElem?_set_ne (by omega), ← List.getD_eq_getElem?_getD]
  · rfl

/-! ## What the loops preserve -/

/-- The entries before `i` are in their places. -/
def Front (key : α → κ) (d : α) (i : Nat) (l : List α) : Prop :=
  ∀ a b, a < i → a < b → b < l.length → key (l.getD a d) ≤ key (l.getD b d)

/-- Entry `i` has the least key of those from `i` to before `j`. -/
def Least (key : α → κ) (d : α) (i j : Nat) (l : List α) : Prop :=
  ∀ b, i ≤ b → b < j → key (l.getD i d) ≤ key (l.getD b d)

theorem Front.exchange (h : Front key d i l) (hij : i < j) (hj : j < l.length) :
    Front key d i (exchange key d i l j) := by
  intro a b ha hab hb
  rw [(exchange_perm (hij.trans hj) hj).length_eq] at hb
  rw [getD_exchange (hij.trans hj) hij hj, getD_exchange (hij.trans hj) hij hj]
  have hai := h a i ha ha (hij.trans hj)
  have haj := h a j ha (ha.trans hij) hj
  have hle := h a b ha hab hb
  split
  · rw [if_neg (by omega), if_neg (by omega)]
    split
    · exact hai
    · split
      · exact haj
      · exact hle
  · exact hle

theorem Least.exchange (h : Least key d i j l) (hij : i < j) (hj : j < l.length) :
    Least key d i (j + 1) (exchange key d i l j) := by
  intro b hib hb
  rw [getD_exchange (hij.trans hj) hij hj, getD_exchange (hij.trans hj) hij hj]
  split
  · next hlt =>
    rw [if_neg hij.ne, if_pos rfl]
    split
    · exact hlt.le
    · split
      · exact le_refl _
      · exact hlt.le.trans (h b hib (by omega))
  · next hge =>
    rcases Nat.lt_succ_iff_lt_or_eq.1 hb with hbj | rfl
    · exact h b hib hbj
    · exact not_lt.1 hge

/-- The inner loop. -/
theorem inner_loop (hfront : Front key d i l) (hi : i < l.length) :
    Front key d (i + 1) ((List.range' (i + 1) (l.length - (i + 1))).foldl (exchange key d i) l) ∧
      ((List.range' (i + 1) (l.length - (i + 1))).foldl (exchange key d i) l).Perm l := by
  obtain ⟨hperm, hfront, hleast⟩ := foldl_range' (f := exchange key d i)
    (P := fun j l' => l'.Perm l ∧ Front key d i l' ∧ Least key d i j l')
    (s := i + 1) (n := l.length - (i + 1)) (x := l)
    (by
      rintro j l' hij hj ⟨hperm, hfront, hleast⟩
      have hj' : j < l'.length := by rw [hperm.length_eq]; omega
      exact ⟨(exchange_perm (by omega) hj').trans hperm, hfront.exchange hij hj',
        hleast.exchange hij hj'⟩)
    ⟨.refl _, hfront, by
      intro b hib hb
      rw [show b = i by omega]⟩
  refine ⟨?_, hperm⟩
  intro a b ha hab hb
  rcases Nat.lt_succ_iff_lt_or_eq.1 ha with hai | rfl
  · exact hfront a b hai hab hb
  · rw [hperm.length_eq] at hb
    exact hleast b hab.le (by omega)

theorem sort_spec (key : α → κ) (d : α) (l : List α) :
    (sort key d l).Perm l ∧ Front key d l.length (sort key d l) := by
  have hloop := foldl_range' (s := 0) (n := l.length) (x := l)
    (f := fun l i => (List.range' (i + 1) (l.length - (i + 1))).foldl (exchange key d i) l)
    (P := fun i l' => l'.Perm l ∧ Front key d i l')
    (by
      rintro i l' - hi ⟨hperm, hfront⟩
      have hi' : i < l'.length := by rw [hperm.length_eq]; omega
      obtain ⟨hfront', hperm'⟩ := inner_loop hfront hi'
      exact ⟨hperm'.trans hperm, hfront'⟩)
    ⟨.refl _, fun a b ha => absurd ha (Nat.not_lt_zero _)⟩
  rw [Nat.zero_add, ← List.range_eq_range'] at hloop
  exact hloop

/-- **Sorting** only changes the order of the entries. -/
theorem sort_perm (key : α → κ) (d : α) (l : List α) : (sort key d l).Perm l := (sort_spec key d l).1

/-- **Sorting** puts the keys in order. -/
theorem sort_sorted (key : α → κ) (d : α) (l : List α) :
    (sort key d l).Pairwise fun a b => key a ≤ key b := by
  obtain ⟨hperm, hfront⟩ := sort_spec key d l
  rw [List.pairwise_iff_getElem]
  intro a b ha hb hab
  rw [hperm.length_eq] at ha
  have hle := hfront a b ha hab hb
  rwa [List.getD_eq_getElem _ _ (by rwa [hperm.length_eq]), List.getD_eq_getElem _ _ hb] at hle

/-- Two sorted lists of the same entries have the same keys in the same places. -/
theorem keys_eq {l l' : List α} (h : l.Pairwise fun a b => key a ≤ key b)
    (h' : l'.Pairwise fun a b => key a ≤ key b) (hperm : l.Perm l') : l.map key = l'.map key :=
  (hperm.map key).eq_of_pairwise (fun _ _ _ _ hab hba => le_antisymm hab hba)
    (List.pairwise_map.2 h) (List.pairwise_map.2 h')

end ExchangeSort
