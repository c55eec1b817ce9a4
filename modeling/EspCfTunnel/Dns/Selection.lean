import EspCfTunnel.Dns.Select
import EspCfTunnel.Lib.ExchangeSort
import EspCfTunnel.Lib.Weighted
import Mathlib.Algebra.Order.BigOperators.Group.List

/-!
# Which edge is chosen

`sortByPriority` is an exchange sort, so the records of one priority lie together, and the two scans
of `pickRecord` find where (`group_eq`). Within the group the random value is a choice by weight
(`spend_eq`). The turn `(attempts - 1) % count` goes through all positions, so through all groups.
-/

namespace EspCfTunnel.Dns

open EspCfTunnel

variable {records : Answer} {priority i k : Nat}

/-! ## Sorting -/

theorem sortByPriority_eq (records : Answer) :
    sortByPriority records = ExchangeSort.sort Record.priority {} records := rfl

theorem sortByPriority_perm (records : Answer) : (sortByPriority records).Perm records := by
  rw [sortByPriority_eq]
  exact ExchangeSort.sort_perm _ _ _

theorem sortByPriority_sorted (records : Answer) :
    (sortByPriority records).Pairwise fun a b => a.priority ≤ b.priority := by
  rw [sortByPriority_eq]
  exact ExchangeSort.sort_sorted _ _ _

theorem Answer.nth_eq (h : i < records.length) : records.nth i = records[i] :=
  List.getD_eq_getElem _ _ h

theorem priority_le (h : records.Pairwise fun a b => a.priority ≤ b.priority) {a b : Nat} (hab : a ≤ b)
    (hb : b < records.length) : (records.nth a).priority ≤ (records.nth b).priority := by
  rcases hab.eq_or_lt with rfl | hlt
  · exact le_refl _
  · rw [Answer.nth_eq hb, Answer.nth_eq (hlt.trans hb)]
    exact List.pairwise_iff_getElem.1 h _ _ _ _ hlt

/-! ## The records of one priority -/

/-- The indices of the records with a priority. -/
def Answer.group (records : Answer) (priority : Nat) : List Nat :=
  (List.range records.length).filter fun i => (records.nth i).priority = priority

theorem mem_group : i ∈ records.group priority ↔
    i < records.length ∧ (records.nth i).priority = priority := by
  rw [Answer.group, List.mem_filter, List.mem_range, decide_eq_true_eq]

theorem firstOf_spec (records : Answer) (priority i : Nat) :
    firstOf records priority i ≤ i ∧
      (∀ m, firstOf records priority i ≤ m → m < i → (records.nth m).priority = priority) ∧
      ∀ m, m + 1 = firstOf records priority i → (records.nth m).priority ≠ priority := by
  induction i with
  | zero => exact ⟨le_refl _, fun m _ hm => absurd hm (Nat.not_lt_zero _), nofun⟩
  | succ i ih =>
    obtain ⟨hle, hsame, hbefore⟩ := ih
    rw [firstOf]
    split
    · next hi =>
      refine ⟨hle.trans (Nat.le_succ i), fun m hm hlt => ?_, hbefore⟩
      rcases Nat.lt_succ_iff_lt_or_eq.1 hlt with hlt | rfl
      · exact hsame m hm hlt
      · exact hi
    · next hi =>
      refine ⟨le_refl _, fun m hm hlt => absurd hlt (not_lt.2 hm), fun m hm => ?_⟩
      cases hm
      exact hi

theorem lastOf_spec (priority : Nat) {fuel : Nat} (hi : i < records.length) (hfuel : records.length ≤ i + fuel) :
    i ≤ lastOf records priority fuel i ∧ lastOf records priority fuel i < records.length ∧
      (∀ m, i < m → m ≤ lastOf records priority fuel i → (records.nth m).priority = priority) ∧
      (lastOf records priority fuel i + 1 < records.length →
        (records.nth (lastOf records priority fuel i + 1)).priority ≠ priority) := by
  induction fuel generalizing i with
  | zero => omega
  | succ fuel ih =>
    rw [lastOf]
    split
    · next hnext =>
      obtain ⟨hle, hlt, hsame, hbehind⟩ := ih hnext.1 (by omega)
      refine ⟨(Nat.le_succ i).trans hle, hlt, fun m him hm => ?_, hbehind⟩
      rcases Nat.lt_or_ge (i + 1) m with him' | him'
      · exact hsame m him' hm
      · rw [show m = i + 1 by omega]
        exact hnext.2
    · next hnext =>
      refine ⟨le_refl _, hi, fun m him hm => absurd him (not_lt.2 hm), fun hlt heq => ?_⟩
      exact hnext ⟨hlt, heq⟩

/-- The indices of an interval, picked out of all. -/
theorem filter_range {p : Nat → Bool} {a b n : Nat} (h : ∀ m < n, p m = true ↔ a ≤ m ∧ m < b)
    (hb : b ≤ n) : (List.range n).filter p = List.range' a (b - a) := by
  have hperm : ((List.range n).filter p).Perm (List.range' a (b - a)) := by
    refine (List.perm_ext_iff_of_nodup (List.nodup_range.filter _) List.nodup_range').2 fun m => ?_
    rw [List.mem_filter, List.mem_range, List.mem_range'_1]
    constructor
    · rintro ⟨hm, hp⟩
      have := (h m hm).1 hp
      omega
    · intro hm
      have hn : m < n := by omega
      exact ⟨hn, (h m hn).2 (by omega)⟩
  exact hperm.eq_of_pairwise (fun _ _ _ _ hab hba => absurd (hab.trans hba) (lt_irrefl _))
    (List.pairwise_lt_range.filter _) List.pairwise_lt_range'

/-- In a sorted answer the two scans from one record enclose its group. -/
theorem group_eq (h : records.Pairwise fun a b => a.priority ≤ b.priority) (hk : k < records.length) :
    records.group (records.nth k).priority =
      List.range' (firstOf records (records.nth k).priority k)
        (lastOf records (records.nth k).priority records.length k + 1 -
          firstOf records (records.nth k).priority k) := by
  obtain ⟨hfirst, hbefore, hfront⟩ := firstOf_spec records (records.nth k).priority k
  obtain ⟨hlast, hend, hafter, hbehind⟩ :=
    lastOf_spec (records.nth k).priority hk (Nat.le_add_left _ k)
  refine filter_range (fun m hm => ?_) hend
  rw [decide_eq_true_eq]
  constructor
  · intro hsame
    constructor
    · by_contra hlt
      obtain ⟨f, hf⟩ : ∃ f, f + 1 = firstOf records (records.nth k).priority k :=
        ⟨firstOf records (records.nth k).priority k - 1, by omega⟩
      have hmf := priority_le h (show m ≤ f by omega) (by omega)
      have hfk := priority_le h (show f ≤ k by omega) hk
      exact hfront f hf (by omega)
    · by_contra hge
      have hnext := hbehind (by omega)
      have hkn := priority_le h (show k ≤ lastOf records (records.nth k).priority records.length k + 1
        by omega) (by omega)
      have hnm := priority_le h (show lastOf records (records.nth k).priority records.length k + 1 ≤ m
        by omega) hm
      omega
  · rintro ⟨hfm, hml⟩
    rcases Nat.lt_trichotomy m k with hmk | rfl | hmk
    · exact hbefore m hfm hmk
    · rfl
    · exact hafter m hmk (by omega)

/-! ## The choice in a group -/

/-- The loop over the weights is a choice by weight among the records from `pick` to `last`. -/
theorem spend_eq {fuel pick last value : Nat} (hpick : pick ≤ last) (hfuel : last < pick + fuel)
    (hvalue : value <
      ((List.range' pick (last + 1 - pick)).map fun i => (records.nth i).weight).sum) :
    spend records last fuel pick value = pick +
      Weighted.chosen ((List.range' pick (last + 1 - pick)).map fun i => (records.nth i).weight) value := by
  induction fuel generalizing pick value with
  | zero => omega
  | succ fuel ih =>
    obtain ⟨n, hn⟩ : ∃ n, last + 1 - pick = n + 1 := ⟨last - pick, by omega⟩
    rw [hn, List.range'_succ, List.map_cons, List.sum_cons] at hvalue
    rw [hn, List.range'_succ, List.map_cons, spend, Weighted.chosen]
    have hlen : n = last + 1 - (pick + 1) := by omega
    by_cases hlast : pick < last
    · rw [if_pos hlast]
      split
      · rfl
      · rw [hlen] at hvalue ⊢
        rw [ih (show pick + 1 ≤ last from hlast) (by omega) (by omega)]
        omega
    · have hzero : n = 0 := by omega
      subst hzero
      rw [if_neg hlast, if_pos (by simpa using hvalue)]
      rfl

/-- The turn that attempt number `attempts` has among `count` records. -/
def turn (attempts count : Nat) : Nat := (attempts + 2 ^ 32 - 1) % 2 ^ 32 % count

/-- The weights of a group. -/
def Answer.weights (records : Answer) (group : List Nat) : List Nat :=
  group.map fun i => (records.nth i).weight

/-- Sixteen weights of 16 bits do not overflow 32 bits. -/
theorem sum_weights_lt (hcount : records.length ≤ 16) (hweight : ∀ r ∈ records, r.weight < 65536)
    (priority : Nat) : (records.weights (records.group priority)).sum < 2 ^ 32 := by
  have hbound : (records.weights (records.group priority)).sum ≤
      (records.weights (records.group priority)).length * 65535 := by
    refine List.sum_le_card_nsmul _ _ fun w hw => ?_
    obtain ⟨i, hi, rfl⟩ := List.mem_map.1 hw
    have hlt := (mem_group.1 hi).1
    have := hweight _ (List.getElem_mem hlt)
    rw [Answer.nth_eq hlt]
    omega
  have hlen : (records.weights (records.group priority)).length ≤ records.length := by
    rw [Answer.weights, List.length_map, Answer.group]
    exact (List.length_filter_le _ _).trans_eq List.length_range
  omega

/-- `pickRecord` on a sorted answer: a choice by weight in the group whose turn it is. -/
theorem pickRecord_eq (h : records.Pairwise fun a b => a.priority ≤ b.priority) {attempts : Nat}
    (hk : turn attempts records.length < records.length)
    (hsum : (records.weights (records.group (records.nth (turn attempts records.length)).priority)).sum <
      2 ^ 32) :
    ∃ first, ∃ len, records.group (records.nth (turn attempts records.length)).priority =
        List.range' first len ∧
      ∀ random, pickRecord records attempts random =
        let weights := records.weights (records.group (records.nth (turn attempts records.length)).priority)
        if weights.sum ≠ 0 then first + Weighted.chosen weights (random % weights.sum)
        else turn attempts records.length := by
  obtain ⟨k, hkdef⟩ : ∃ k, k = turn attempts records.length := ⟨_, rfl⟩
  rw [← hkdef] at hk hsum ⊢
  have hgroup := group_eq h hk
  have hmem : k ∈ records.group (records.nth k).priority := mem_group.2 ⟨hk, rfl⟩
  refine ⟨_, _, hgroup, fun random => ?_⟩
  obtain ⟨hfirst, -⟩ := firstOf_spec records (records.nth k).priority k
  obtain ⟨hlast, hend, -⟩ :=
    lastOf_spec (records.nth k).priority hk (Nat.le_add_left _ k)
  rw [hgroup] at hsum ⊢
  have hpick : pickRecord records attempts random =
      if (records.weights (List.range' (firstOf records (records.nth k).priority k)
          (lastOf records (records.nth k).priority records.length k + 1 -
            firstOf records (records.nth k).priority k))).sum % 2 ^ 32 ≠ 0 then
        spend records (lastOf records (records.nth k).priority records.length k) records.length
          (firstOf records (records.nth k).priority k)
          (random % ((records.weights (List.range' (firstOf records (records.nth k).priority k)
            (lastOf records (records.nth k).priority records.length k + 1 -
              firstOf records (records.nth k).priority k))).sum % 2 ^ 32))
      else k := by
    rw [hkdef]
    rfl
  rw [hpick, Nat.mod_eq_of_lt hsum]
  dsimp only
  split
  · next hpos =>
    exact spend_eq (hfirst.trans hlast) (by omega) (Nat.mod_lt _ (Nat.pos_of_ne_zero hpos))
  · rfl

/-! ## Over the attempts -/

theorem turn_lt {attempts count : Nat} (h : 0 < count) : turn attempts count < count := Nat.mod_lt _ h

/-- Attempts that follow each other have all turns. -/
theorem exists_turn {first count m : Nat} (hfirst : 1 ≤ first) (hwrap : first + count ≤ 2 ^ 32 + 1)
    (hm : m < count) : ∃ j < count, turn (first + j) count = m := by
  obtain ⟨c, hc⟩ : ∃ c, c = (first - 1) % count := ⟨_, rfl⟩
  have hlt : c < count := hc ▸ Nat.mod_lt _ (by omega)
  have hturn : ∀ j < count, turn (first + j) count = (c + j) % count := by
    intro j hj
    have hshift : (first + j + 2 ^ 32 - 1) % 2 ^ 32 = first - 1 + j := by omega
    rw [turn, hshift, hc, Nat.mod_add_mod]
  by_cases hcm : c ≤ m
  · refine ⟨m - c, by omega, ?_⟩
    rw [hturn _ (by omega), show c + (m - c) = m by omega, Nat.mod_eq_of_lt hm]
  · refine ⟨m + count - c, by omega, ?_⟩
    rw [hturn _ (by omega), show c + (m + count - c) = m + count by omega, Nat.add_mod_right,
      Nat.mod_eq_of_lt hm]

/-- Answers with the same records have the same priorities in the same places. -/
theorem priority_sorted {answer : Answer} (h : answer.Perm records) (hi : i < records.length) :
    ((sortByPriority answer).nth i).priority = ((sortByPriority records).nth i).priority := by
  have hperm : (sortByPriority answer).Perm (sortByPriority records) :=
    (sortByPriority_perm answer).trans (h.trans (sortByPriority_perm records).symm)
  have hkeys := ExchangeSort.keys_eq (sortByPriority_sorted answer) (sortByPriority_sorted records) hperm
  have hlen : i < (sortByPriority records).length := by rwa [(sortByPriority_perm records).length_eq]
  have hlen' : i < (sortByPriority answer).length := by rwa [hperm.length_eq]
  rw [Answer.nth_eq hlen, Answer.nth_eq hlen']
  have hget := congrArg (fun l => l[i]?) hkeys
  simpa [List.getElem?_map, hlen, hlen'] using hget

/-- **The pick stays in the group** whose turn it is. -/
theorem pickRecord_mem (h : records.Pairwise fun a b => a.priority ≤ b.priority) {attempts : Nat}
    (hpos : 0 < records.length)
    (hsum : (records.weights (records.group (records.nth (turn attempts records.length)).priority)).sum <
      2 ^ 32) (random : Nat) : pickRecord records attempts random ∈
      records.group (records.nth (turn attempts records.length)).priority := by
  obtain ⟨first, len, hgroup, hpick⟩ := pickRecord_eq h (turn_lt hpos) hsum
  rw [hpick]
  dsimp only
  split
  · next hne =>
    have hmem : ∀ v < len, first + v ∈
        records.group (records.nth (turn attempts records.length)).priority := by
      intro v hv
      rw [hgroup, List.mem_range'_1]
      exact ⟨Nat.le_add_right _ _, Nat.add_lt_add_left hv _⟩
    have hlen : (records.weights
        (records.group (records.nth (turn attempts records.length)).priority)).length = len := by
      rw [Answer.weights, List.length_map, hgroup, List.length_range']
    exact hmem _ ((Weighted.chosen_lt (Nat.mod_lt random (Nat.pos_of_ne_zero hne))).trans_eq hlen)
  · exact mem_group.2 ⟨turn_lt hpos, rfl⟩

/-- A record of the group is picked by as many of the values below the sum of the weights as its
own weight is. -/
theorem count_pickRecord (h : records.Pairwise fun a b => a.priority ≤ b.priority) {attempts : Nat}
    (hpos : 0 < records.length)
    (hsum : (records.weights (records.group (records.nth (turn attempts records.length)).priority)).sum <
      2 ^ 32)
    (hweight : 0 <
      (records.weights (records.group (records.nth (turn attempts records.length)).priority)).sum)
    (hi : i ∈ records.group (records.nth (turn attempts records.length)).priority) :
    (List.range (records.weights
        (records.group (records.nth (turn attempts records.length)).priority)).sum).countP
      (fun v => pickRecord records attempts v = i) = (records.nth i).weight := by
  obtain ⟨first, len, hgroup, hpick⟩ := pickRecord_eq h (turn_lt hpos) hsum
  have hrun : ∀ v, v < (records.weights
      (records.group (records.nth (turn attempts records.length)).priority)).sum →
      pickRecord records attempts v = first + Weighted.chosen (records.weights
        (records.group (records.nth (turn attempts records.length)).priority)) v := by
    intro v hv
    rw [hpick]
    dsimp only
    rw [if_pos hweight.ne', Nat.mod_eq_of_lt hv]
  generalize hw : records.weights
    (records.group (records.nth (turn attempts records.length)).priority) = weights at hrun ⊢
  rw [hgroup, List.mem_range'_1] at hi
  obtain ⟨m, rfl⟩ := Nat.exists_eq_add_of_le hi.1
  have hm : m < weights.length := by
    rw [← hw, Answer.weights, List.length_map, hgroup, List.length_range']
    omega
  have hcongr : (List.range weights.sum).countP (fun v => pickRecord records attempts v = first + m) =
      (List.range weights.sum).countP fun v => Weighted.chosen weights v = m := by
    refine List.countP_congr fun v hv => ?_
    rw [hrun v (List.mem_range.1 hv)]
    simp
  rw [hcongr, Weighted.count_chosen weights hm]
  subst hw
  simp [Answer.weights, hgroup]

/-- **The choice among SRV records.** They are put in the order of their priorities; the pick is in
the group whose turn it is, by weight if the group has any, else the record itself whose turn it is.
Attempts that follow each other reach every group, whatever the order of the records was each time. -/
theorem srv_selection (records : Answer) (hcount : 1 ≤ records.length ∧ records.length ≤ 16)
    (hweight : ∀ r ∈ records, r.weight < 65536) (attempts : Nat) :
    let sorted := sortByPriority records
    let k := turn attempts records.length
    let group := sorted.group (sorted.nth k).priority
    let total := (sorted.weights group).sum
    sorted.Perm records ∧ (sorted.Pairwise fun a b => a.priority ≤ b.priority) ∧
      (∀ random, pickRecord sorted attempts random ∈ group) ∧ total < 2 ^ 32 ∧
      (0 < total →
        (∀ random, pickRecord sorted attempts random = pickRecord sorted attempts (random % total)) ∧
        ∀ i ∈ group, (List.range total).countP (fun v => pickRecord sorted attempts v = i) =
          (sorted.nth i).weight) ∧
      (total = 0 → ∀ random, pickRecord sorted attempts random = k) ∧
      ∀ first (answers : Nat → Answer), 1 ≤ first → first + records.length ≤ 2 ^ 32 + 1 →
        (∀ j < records.length, (answers j).Perm records) →
        ∀ r ∈ records, ∃ j < records.length, ∀ random,
          ((sortByPriority (answers j)).nth
            (pickRecord (sortByPriority (answers j)) (first + j) random)).priority = r.priority := by
  intro sorted k group total
  have hsorted : sorted.Pairwise fun a b => a.priority ≤ b.priority := sortByPriority_sorted records
  have hperm : sorted.Perm records := sortByPriority_perm records
  have hlen : sorted.length = records.length := hperm.length_eq
  have hpos : 0 < sorted.length := by omega
  have hsum : ∀ answer : Answer, answer.Perm records → ∀ priority,
      (Answer.weights (sortByPriority answer) (Answer.group (sortByPriority answer) priority)).sum <
        2 ^ 32 := by
    intro answer ha priority
    have hp := (sortByPriority_perm answer).trans ha
    exact sum_weights_lt (hp.length_eq ▸ hcount.2) (fun r hr => hweight r (hp.mem_iff.1 hr)) priority
  have hk : k = turn attempts sorted.length := by rw [hlen]
  have htotal : total < 2 ^ 32 := hsum records (.refl _) _
  have hgroup : group = sorted.group (sorted.nth (turn attempts sorted.length)).priority := by
    rw [← hk]
  have htotal' : (sorted.weights
      (sorted.group (sorted.nth (turn attempts sorted.length)).priority)).sum < 2 ^ 32 := by
    rw [← hgroup]
    exact htotal
  obtain ⟨start, len, -, hpick⟩ : ∃ first, ∃ len, group = List.range' first len ∧
      ∀ random, pickRecord sorted attempts random =
        if total ≠ 0 then first + Weighted.chosen (sorted.weights group) (random % total) else k := by
    have heq := pickRecord_eq hsorted (turn_lt hpos) htotal'
    rw [← hgroup, ← hk] at heq
    exact heq
  refine ⟨hperm, hsorted, ?_, htotal, ?_, ?_, ?_⟩
  · intro random
    rw [hgroup]
    exact pickRecord_mem hsorted hpos htotal' random
  · intro hpositive
    constructor
    · intro random
      rw [hpick, hpick, Nat.mod_mod]
    · intro i hi
      rw [hgroup] at hi
      have heq := count_pickRecord hsorted hpos htotal' (by rw [← hgroup]; exact hpositive) hi
      rw [← hgroup] at heq
      exact heq
  · intro hzero random
    rw [hpick, if_neg (not_not.2 hzero)]
  · intro first answers hfirst hwrap hanswers r hr
    obtain ⟨m, hm, hmr⟩ : ∃ m < records.length, (sorted.nth m).priority = r.priority := by
      obtain ⟨m, hm, rfl⟩ := List.getElem_of_mem (hperm.mem_iff.2 hr)
      exact ⟨m, hlen ▸ hm, by rw [Answer.nth_eq hm]⟩
    obtain ⟨j, hj, hturn⟩ := exists_turn hfirst hwrap hm
    refine ⟨j, hj, fun random => ?_⟩
    have hlenj : (sortByPriority (answers j)).length = records.length :=
      ((sortByPriority_perm _).trans (hanswers j hj)).length_eq
    obtain ⟨attempts', hattempts'⟩ : ∃ attempts', attempts' = first + j := ⟨_, rfl⟩
    have hmem := pickRecord_mem (sortByPriority_sorted (answers j)) (by omega)
      (hsum _ (hanswers j hj) ((sortByPriority (answers j)).nth
        (turn attempts' (sortByPriority (answers j)).length)).priority) random
    rw [hlenj, hattempts', hturn] at hmem
    rw [(mem_group.1 hmem).2, priority_sorted (hanswers j hj) hm, hmr]

/-- Two records of the first priority, one of them without weight, and one of the second. -/
def threeRecords : Answer :=
  [{ priority := 2, weight := 7 }, { priority := 1, weight := 0 }, { priority := 1, weight := 3 }]

theorem srv_selection_three :
    let sorted := sortByPriority threeRecords
    sorted.Perm threeRecords ∧ (sorted.Pairwise fun a b => a.priority ≤ b.priority) ∧
      ∀ random, pickRecord sorted 1 random ∈ sorted.group (sorted.nth (turn 1 3)).priority :=
  let h := srv_selection threeRecords (by simp [threeRecords]) (by simp [threeRecords]) 1
  ⟨h.1, h.2.1, h.2.2.1⟩

end EspCfTunnel.Dns
