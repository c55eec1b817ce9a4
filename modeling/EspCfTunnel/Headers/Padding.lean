import EspCfTunnel.Headers.Base64

/-!
# Base64 with padding

The credentials and the secret in them are padded. The padding of a string is determined by its
length (`base64Digits_padded`), and no digit looks like it, so what `cf_base64_decode` takes off is
the padding and nothing else. In both modes the texts that are accepted are those that
`cf_base64_encode` writes, each for one string.
-/

namespace EspCfTunnel.Headers

/-- `cf_base64_encode`, with what it stores and reports. An absent `input` is a null pointer with a
length, an absent `cap` a null `out` with a capacity. -/
def base64Store (input : Option Bytes) (padded : Bool) (cap : Option Nat) : Output :=
  match input, cap with
  | some input, some cap =>
    match base64Encode input padded cap with
    | .error rc => { rc }
    | .ok digits => { rc := .ok, stored := digits, written := digits.length }
  | _, _ => { rc := .argument }

/-! ## The padding -/

/-- The padding of a string of `n` bytes. -/
def padding (n : Nat) : Bytes := if n % 3 = 0 then [] else if n % 3 = 1 then [61, 61] else [61]

theorem base64Digits_padded (x : Bytes) :
    base64Digits true x = base64Digits false x ++ padding x.length := by
  induction x using base64Digits.induct true with
  | case1 | case2 a | case3 a b => rfl
  | case4 a b c rest ih =>
    have hpad : padding (rest.length + 1 + 1 + 1) = padding rest.length := by
      simp only [padding, Nat.add_assoc]
      rw [Nat.add_mod_right]
    simp only [base64Digits, List.length_cons, ih, hpad, List.cons_append]

/-- A character of the alphabet is no padding. -/
theorem alphabet_ne_pad {n : Nat} (h : n < 64) : alphabet n ≠ 61 := by
  intro heq
  have hdigit := digit_alphabet h
  rw [heq] at hdigit
  cases hdigit

/-- A text of digits does not end with padding. -/
theorem getLast?_base64Digits (x : Bytes) : (base64Digits false x).getLast? ≠ some 61 := by
  have hall : ∀ c ∈ base64Digits false x, c ≠ 61 := by
    induction x using base64Digits.induct false with
    | case1 => simp [base64Digits]
    | case2 a | case3 a b =>
      simp only [base64Digits, List.forall_mem_cons]
      simp [alphabet_ne_pad (Nat.mod_lt _ (show 64 > 0 by decide))]
    | case4 a b c rest ih =>
      simp only [base64Digits, List.forall_mem_cons]
      simp only [ne_eq, alphabet_ne_pad (Nat.mod_lt _ (show 64 > 0 by decide)), not_false_eq_true, true_and]
      exact ih
  intro hlast
  exact hall 61 (List.mem_of_getLast? hlast) rfl

@[simp] theorem dropPad_concat (t : Bytes) : dropPad (t ++ [61]) = t := by
  simp [dropPad]

theorem dropPad_eq_self {t : Bytes} (h : t.getLast? ≠ some 61) : dropPad t = t := if_neg h

/-- What is taken off is the padding. -/
theorem dropPad_digits (x : Bytes) : dropPad (dropPad (base64Digits true x)) = base64Digits false x := by
  have hself := dropPad_eq_self (getLast?_base64Digits x)
  rw [base64Digits_padded, padding]
  split
  · rw [List.append_nil, hself, hself]
  split
  · rw [show ([61, 61] : Bytes) = [61] ++ [61] from rfl, ← List.append_assoc, dropPad_concat, dropPad_concat]
  · rw [dropPad_concat, hself]

/-- A text is what is left of it and up to two characters of padding. -/
theorem dropPad_spec (t : Bytes) : ∃ k, k ≤ 1 ∧ t = dropPad t ++ List.replicate k 61 := by
  unfold dropPad
  split
  · next hlast =>
    obtain ⟨u, rfl⟩ := List.getLast?_eq_some_iff.1 hlast
    exact ⟨1, le_rfl, by simp⟩
  · exact ⟨0, Nat.zero_le _, by simp⟩

theorem dropPad_twice (t : Bytes) :
    ∃ k, k ≤ 2 ∧ t = dropPad (dropPad t) ++ List.replicate k 61 := by
  obtain ⟨k, hk, ht⟩ := dropPad_spec t
  obtain ⟨j, hj, hu⟩ := dropPad_spec (dropPad t)
  refine ⟨j + k, by omega, ?_⟩
  rw [← List.replicate_append_replicate, ← List.append_assoc, ← hu, ← ht]

/-- The padding that makes the length a multiple of four is that of the string. -/
theorem replicate_eq_padding {n k : Nat} (hk : k ≤ 2) (h : (base64Need false n + k) % 4 = 0) :
    List.replicate k 61 = padding n := by
  unfold base64Need at h
  unfold padding
  simp only [Bool.false_eq_true, if_false] at h
  split at h
  · next hn =>
    obtain rfl : k = 0 := by omega
    rw [if_pos hn]
    rfl
  · next hn =>
    rw [if_neg hn]
    split
    · next hone =>
      obtain rfl : k = 2 := by omega
      rfl
    · next hone =>
      obtain rfl : k = 1 := by omega
      rfl

/-! ## The two modes -/

/-- What is decoded once the padding is taken off. -/
def base64Body (padded : Bool) (t : Bytes) : Bytes := if padded then dropPad (dropPad t) else t

/-- **Decoding the digits of a string** gives the string, if it fits. -/
theorem base64Decode_digits_mode (padded : Bool) {x : Bytes} {cap : Nat} (h : x.length ≤ cap) :
    base64Decode (some (base64Digits padded x)) padded (some cap) =
      { rc := .ok, stored := x, written := x.length } := by
  have hraw := base64Decode_digits h
  cases padded with
  | false => exact hraw
  | true =>
    have hmod : (base64Digits true x).length % 4 = 0 := by
      rw [length_base64Digits, base64Need]
      split <;> simp
    change (if _ then _ else base64Raw (dropPad (dropPad (base64Digits true x))) cap) = _
    rw [if_neg (not_not.2 hmod), dropPad_digits]
    exact hraw

/-- **A text that is accepted** is the digits of the bytes that are stored, and their number is the
one checked against the capacity. -/
theorem base64Decode_ok_mode {padded : Bool} {t : Bytes} {cap : Nat}
    (h : (base64Decode (some t) padded (some cap)).rc = .ok) :
    ∃ x, base64Decode (some t) padded (some cap) =
        { rc := .ok, stored := x, written := x.length } ∧
      base64Digits padded x = t ∧ x.length = base64Count (base64Body padded t).length ∧
      x.length ≤ cap := by
  cases padded with
  | false => exact base64Decode_ok h
  | true =>
    change (if t.length % 4 ≠ 0 then _ else base64Raw (dropPad (dropPad t)) cap : Output).rc = .ok at h
    by_cases hmod : t.length % 4 ≠ 0
    · rw [if_pos hmod] at h
      cases h
    have heq : base64Decode (some t) true (some cap) =
        base64Decode (some (dropPad (dropPad t))) false (some cap) := if_neg hmod
    rw [if_neg hmod] at h
    obtain ⟨x, hdecode, hdigits, hcount, hcap⟩ := base64Decode_ok (t := dropPad (dropPad t)) h
    refine ⟨x, heq.trans hdecode, ?_, hcount, hcap⟩
    obtain ⟨k, hk, ht⟩ := dropPad_twice t
    rw [base64Digits_padded, hdigits]
    conv_rhs => rw [ht]
    congr 1
    refine (replicate_eq_padding hk ?_).symm
    have hlength := congrArg List.length ht
    rw [List.length_append, List.length_replicate, ← hdigits, length_base64Digits] at hlength
    omega

/-- The digits of a string determine it. -/
theorem base64Digits_inj {padded : Bool} {x y : Bytes} (h : base64Digits padded x = base64Digits padded y) :
    x = y := by
  have hx := base64Decode_digits_mode padded (le_max_left x.length y.length)
  rw [h, base64Decode_digits_mode padded (le_max_right x.length y.length)] at hx
  exact (congrArg Output.stored hx).symm

/-- `cf_base64_encode` writes the digits, as many as it has checked against the capacity. -/
theorem base64Store_eq {x : Bytes} {padded : Bool} {cap : Nat}
    (hguard : x.length / 3 ≤ (2 ^ 32 - 1 - 4) / 4) (hcap : base64Need padded x.length ≤ cap) :
    base64Store (some x) padded (some cap) =
      { rc := .ok, stored := base64Digits padded x, written := base64Need padded x.length } := by
  rw [base64Store, base64Encode, if_neg (by omega), if_neg (by omega)]
  dsimp only
  rw [length_base64Digits]

/-- A call that fails reports the length 0. -/
theorem base64Store_failed {input : Option Bytes} {padded : Bool} {cap : Option Nat}
    (h : (base64Store input padded cap).rc ≠ .ok) : (base64Store input padded cap).written = 0 := by
  unfold base64Store at h ⊢
  split
  · split
    · rfl
    · next heq =>
      dsimp only at h
      rw [heq] at h
      exact absurd rfl h
  · rfl

theorem base64Raw_failed {t : Bytes} {cap : Nat} (h : (base64Raw t cap).rc ≠ .ok) :
    (base64Raw t cap).written = 0 := by
  unfold base64Raw at h ⊢
  split
  · rfl
  split
  · rfl
  next hmod hcap =>
  rw [if_neg hmod, if_neg hcap] at h
  obtain ⟨⟨fin, s⟩, hrun⟩ : ∃ r, decodeLoop t {} = r := ⟨_, rfl⟩
  rw [hrun] at h ⊢
  cases fin with
  | false => rfl
  | true =>
    dsimp only at h ⊢
    split
    · rfl
    · next hclean =>
      rw [if_neg hclean] at h
      exact absurd rfl h

theorem base64Decode_failed {input : Option Bytes} {padded : Bool} {cap : Option Nat}
    (h : (base64Decode input padded cap).rc ≠ .ok) : (base64Decode input padded cap).written = 0 := by
  unfold base64Decode at h ⊢
  split
  · dsimp only at h
    split
    · split
      · rfl
      · next hpadded hmod =>
        rw [if_pos hpadded, if_neg hmod] at h
        exact base64Raw_failed h
    · next hpadded =>
      rw [if_neg hpadded] at h
      exact base64Raw_failed h
  · rfl

/-- Strict Base64 is a bijection, in either mode. What is encoded is decoded again. A text is accepted,
given enough capacity, if and only if it is the digits of a string, which is then the only one and is
what the call returns; these digits are what `cf_base64_encode` writes, if its size guard passes, as it
does for texts that are short enough. The number of bytes written is the one checked beforehand, and
every call that fails reports 0. -/
theorem base64_bijection (padded : Bool) :
    (∀ x : Bytes, x.length / 3 ≤ (2 ^ 32 - 1 - 4) / 4 → ∀ cap, base64Need padded x.length ≤ cap →
      base64Store (some x) padded (some cap) =
          { rc := .ok, stored := base64Digits padded x, written := base64Need padded x.length } ∧
        ∀ room, x.length ≤ room → base64Decode (some (base64Digits padded x)) padded (some room) =
          { rc := .ok, stored := x, written := x.length }) ∧
      (∀ s : Bytes, ∀ cap, s.length ≤ cap → ((base64Decode (some s) padded (some cap)).rc = .ok ↔
        ∃ x, base64Digits padded x = s)) ∧
      (∀ s : Bytes, ∀ cap, (base64Decode (some s) padded (some cap)).rc = .ok →
        ∃ x, base64Decode (some s) padded (some cap) =
            { rc := .ok, stored := x, written := base64Count (base64Body padded s).length } ∧
          base64Digits padded x = s ∧ (∀ y, base64Digits padded y = s → y = x) ∧
          base64Count (base64Body padded s).length ≤ cap ∧
          (s.length < 2 ^ 32 - 4 → x.length / 3 ≤ (2 ^ 32 - 1 - 4) / 4)) ∧
      (∀ input cap, (base64Decode input padded cap).rc ≠ .ok → (base64Decode input padded cap).written = 0) ∧
      ∀ input cap, (base64Store input padded cap).rc ≠ .ok → (base64Store input padded cap).written = 0 := by
  refine ⟨fun x hguard cap hcap => ⟨base64Store_eq hguard hcap, fun room => base64Decode_digits_mode padded⟩,
    fun s cap hcap => ⟨fun h => ?_, ?_⟩, fun s cap h => ?_, fun _ _ => base64Decode_failed,
    fun _ _ => base64Store_failed⟩
  · obtain ⟨x, -, hdigits, -⟩ := base64Decode_ok_mode h
    exact ⟨x, hdigits⟩
  · rintro ⟨x, rfl⟩
    have hlength : x.length ≤ cap := by
      rw [length_base64Digits] at hcap
      refine le_trans ?_ hcap
      unfold base64Need
      split
      · omega
      · split <;> omega
    rw [base64Decode_digits_mode padded hlength]
  · obtain ⟨x, hdecode, rfl, hcount, hcap⟩ := base64Decode_ok_mode h
    rw [← hcount]
    refine ⟨x, hdecode, rfl, fun y hy => base64Digits_inj hy, hcap, fun hshort => ?_⟩
    rw [length_base64Digits, base64Need] at hshort
    omega

/-- Of two spellings of one byte, the one with bits left over is refused. -/
example : (base64Decode (some (text "YQ==")) true (some 1)).rc = .ok ∧
    (base64Decode (some (text "YR==")) true (some 1)).rc = .format := by decide +kernel

end EspCfTunnel.Headers
