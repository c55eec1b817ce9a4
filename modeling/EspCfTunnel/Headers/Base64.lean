import EspCfTunnel.Headers

/-!
# Base64

`cf_base64_decode`, against the encoder of the headers. The decoder shifts six bits in for each digit
and takes eight out as soon as it has them, so between groups of four digits nothing is pending and
what the earlier groups left in the 32-bit accumulator is out of reach (`Decoder.four`). From there
the digits of a string decode to the string (`decodeLoop_digits`), and a text that decodes is the
digits of what it decodes to (`decodeLoop_ok`): no second text, with other bits left over, is
accepted.
-/

namespace EspCfTunnel.Headers

/-- `digit`; `none` for `-1`. -/
def digit (c : UInt8) : Option Nat :=
  if 65 ≤ c ∧ c ≤ 90 then some (c.toNat - 65)
  else if 97 ≤ c ∧ c ≤ 122 then some (c.toNat - 97 + 26)
  else if 48 ≤ c ∧ c ≤ 57 then some (c.toNat - 48 + 52)
  else if c = 43 then some 62
  else if c = 47 then some 63
  else none

/-- The variables of the loop in `cf_base64_decode`; `out` is what is stored so far. -/
structure Decoder where
  bits : Nat := 0
  pending : Nat := 0
  out : Bytes := []
  deriving DecidableEq, Repr

/-- The body of the loop, for one digit. -/
def Decoder.push (s : Decoder) (d : Nat) : Decoder :=
  let bits := (s.bits * 2 ^ 6 + d) % 2 ^ 32
  let pending := s.pending + 6
  if pending ≥ 8 then
    { bits, pending := pending - 8, out := s.out ++ [UInt8.ofNat (bits / 2 ^ (pending - 8))] }
  else { s with bits, pending }

/-- The loop of `cf_base64_decode`: it stops at a character that is no digit. -/
def decodeLoop : Bytes → Decoder → Bool × Decoder
  | [], s => (true, s)
  | c :: cs, s =>
    match digit c with
    | none => (false, s)
    | some d => decodeLoop cs (s.push d)

/-- What a call with an output buffer leaves: its result, the bytes it stored from the start of the
buffer on, and the length it reports in `*written`. -/
structure Output where
  rc : Result
  stored : Bytes := []
  written : Nat := 0
  deriving DecidableEq, Repr

/-- One round of `if (n && in.ptr[n - 1] == '=') --n`. -/
def dropPad (input : Bytes) : Bytes := if input.getLast? = some 61 then input.dropLast else input

/-- The number of bytes in `n` digits. -/
def base64Count (n : Nat) : Nat := n / 4 * 3 + if n % 4 ≠ 0 then n % 4 - 1 else 0

/-- `cf_base64_decode` once the padding is taken off. -/
def base64Raw (input : Bytes) (cap : Nat) : Output :=
  if input.length % 4 = 1 then { rc := .format }
  else if base64Count input.length > cap then { rc := .limit }
  else
    match decodeLoop input {} with
    | (false, s) => { rc := .format, stored := s.out }
    | (true, s) =>
      if s.pending ≠ 0 ∧ s.bits % 2 ^ s.pending ≠ 0 then { rc := .format, stored := s.out }
      else { rc := .ok, stored := s.out, written := s.out.length }

/-- `cf_base64_decode`. An absent `input` is a null pointer with a length, an absent `cap` a null
`out` with a capacity. -/
def base64Decode (input : Option Bytes) (padded : Bool) (cap : Option Nat) : Output :=
  match input, cap with
  | some input, some cap =>
    if padded then
      if input.length % 4 ≠ 0 then { rc := .format } else base64Raw (dropPad (dropPad input)) cap
    else base64Raw input cap
  | _, _ => { rc := .argument }

/-! ## Digits -/

/-- Every value below 64 is the digit of its character. -/
theorem digit_alphabet {n : Nat} (h : n < 64) : digit (alphabet n) = some n := by
  revert h
  revert n
  decide

/-- The character of a digit is that of the alphabet. -/
theorem digit_some {c : UInt8} {n : Nat} (h : digit c = some n) : n < 64 ∧ alphabet n = c := by
  have hall : ∀ c : UInt8, (match digit c with
      | none => true
      | some n => decide (n < 64 ∧ alphabet n = c)) = true :=
    Bytes.forall_byte (by decide +kernel)
  have hc := hall c
  rw [h] at hc
  exact of_decide_eq_true hc

/-- No digit is a separator. -/
theorem digit_separator : digit 58 = none ∧ digit 59 = none := by decide

/-! ## Groups of digits -/

/-- Two bytes are equal when the numbers they are cut from agree in their low eight bits. -/
theorem ofNat_congr {m n : Nat} (h : m % 256 = n % 256) : UInt8.ofNat m = UInt8.ofNat n := by
  apply UInt8.toNat_inj.1
  rw [UInt8.toNat_ofNat', UInt8.toNat_ofNat']
  exact h

/-- A byte is what its number is cut to. -/
theorem ofNat_eq_of_mod {n : Nat} {b : UInt8} (h : n % 256 = b.toNat) : UInt8.ofNat n = b := by
  apply UInt8.toNat_inj.1
  rw [UInt8.toNat_ofNat']
  exact h

/-- The first byte comes out with the second digit, whose four low bits stay pending. -/
theorem Decoder.two {s : Decoder} (hp : s.pending = 0) (d₁ d₂ : Nat) :
    ∃ bits, bits % 16 = d₂ % 16 ∧ (s.push d₁).push d₂ =
      { bits, pending := 4, out := s.out ++ [UInt8.ofNat (d₁ * 4 + d₂ / 16)] } := by
  refine ⟨((s.bits * 2 ^ 6 + d₁) % 2 ^ 32 * 2 ^ 6 + d₂) % 2 ^ 32, by omega, ?_⟩
  have hbyte : UInt8.ofNat (((s.bits * 2 ^ 6 + d₁) % 2 ^ 32 * 2 ^ 6 + d₂) % 2 ^ 32 / 2 ^ 4) =
      UInt8.ofNat (d₁ * 4 + d₂ / 16) := ofNat_congr (by omega)
  simp [push, hp, ← hbyte]

/-- The second byte comes out with the third digit, whose two low bits stay pending. -/
theorem Decoder.three {s : Decoder} (hp : s.pending = 0) (d₁ d₂ d₃ : Nat) :
    ∃ bits, bits % 4 = d₃ % 4 ∧ ((s.push d₁).push d₂).push d₃ =
      { bits, pending := 2,
        out := s.out ++ [UInt8.ofNat (d₁ * 4 + d₂ / 16), UInt8.ofNat (d₂ * 16 + d₃ / 4)] } := by
  obtain ⟨bits, hbits, heq⟩ := Decoder.two hp d₁ d₂
  refine ⟨(bits * 2 ^ 6 + d₃) % 2 ^ 32, by omega, ?_⟩
  have hbyte : UInt8.ofNat ((bits * 2 ^ 6 + d₃) % 2 ^ 32 / 2 ^ 2) =
      UInt8.ofNat (d₂ * 16 + d₃ / 4) := ofNat_congr (by omega)
  rw [heq]
  simp [push, ← hbyte]

/-- The third byte comes out with the fourth digit, and nothing stays pending. -/
theorem Decoder.four {s : Decoder} (hp : s.pending = 0) (d₁ d₂ d₃ d₄ : Nat) :
    ∃ bits, (((s.push d₁).push d₂).push d₃).push d₄ =
      { bits, pending := 0,
        out := s.out ++ [UInt8.ofNat (d₁ * 4 + d₂ / 16), UInt8.ofNat (d₂ * 16 + d₃ / 4),
          UInt8.ofNat (d₃ * 64 + d₄)] } := by
  obtain ⟨bits, hbits, heq⟩ := Decoder.three hp d₁ d₂ d₃
  refine ⟨(bits * 2 ^ 6 + d₄) % 2 ^ 32, ?_⟩
  have hbyte : UInt8.ofNat ((bits * 2 ^ 6 + d₄) % 2 ^ 32) =
      UInt8.ofNat (d₃ * 64 + d₄) := ofNat_congr (by omega)
  rw [heq]
  simp [push, ← hbyte]

/-! ## The digits of a string -/

/-- The digits of a string number what `cf_base64_encode` computes beforehand. -/
theorem length_base64Digits (padded : Bool) (x : Bytes) :
    (base64Digits padded x).length = base64Need padded x.length := by
  induction x using base64Digits.induct padded with
  | case1 => simp [base64Digits, base64Need]
  | case2 a => cases padded <;> simp [base64Digits, base64Need]
  | case3 a b => cases padded <;> simp [base64Digits, base64Need]
  | case4 a b c rest ih =>
    have hmod : (rest.length + 3) % 3 = rest.length % 3 := Nat.add_mod_right _ _
    have hdiv : (rest.length + 3) / 3 = rest.length / 3 + 1 := Nat.add_div_right _ (by omega)
    simp only [base64Digits, List.length_cons, ih, base64Need, hmod, hdiv]
    omega

/-- Characters that are digits, and the rest of a text. -/
theorem decodeLoop_cons {c : UInt8} {d : Nat} (h : digit c = some d) (cs : Bytes) (s : Decoder) :
    decodeLoop (c :: cs) s = decodeLoop cs (s.push d) := by
  rw [decodeLoop, h]

/-- The same for a character written by the encoder. -/
@[simp] theorem decodeLoop_alphabet (n : Nat) (cs : Bytes) (s : Decoder) :
    decodeLoop (alphabet (n % 64) :: cs) s = decodeLoop cs (s.push (n % 64)) :=
  decodeLoop_cons (digit_alphabet (Nat.mod_lt _ (by simp))) cs s

/-- What the final check of `cf_base64_decode` demands: no bit set among those that are left over. -/
def Decoder.Clean (s : Decoder) : Prop := s.pending ≠ 0 → s.bits % 2 ^ s.pending = 0

/-- One byte is two digits. -/
theorem decodeLoop_one (a : UInt8) {s : Decoder} (hp : s.pending = 0) :
    ∃ s', decodeLoop (base64Digits false [a]) s = (true, s') ∧ s'.out = s.out ++ [a] ∧ s'.Clean := by
  have ha := a.toNat_lt
  obtain ⟨bits, hbits, heq⟩ := Decoder.two hp (a.toNat * 2 ^ 16 / 2 ^ 18 % 64)
    (a.toNat * 2 ^ 16 / 2 ^ 12 % 64)
  have hbyte : UInt8.ofNat (a.toNat * 2 ^ 16 / 2 ^ 18 % 64 * 4 +
      a.toNat * 2 ^ 16 / 2 ^ 12 % 64 / 16) = a :=
    ofNat_eq_of_mod (by omega)
  rw [hbyte] at heq
  refine ⟨{ bits, pending := 4, out := s.out ++ [a] }, ?_, rfl, ?_⟩
  · simp only [base64Digits, decodeLoop_alphabet, heq]
    rfl
  · intro _
    change bits % 16 = 0
    omega

/-- Two bytes are three digits. -/
theorem decodeLoop_two (a b : UInt8) {s : Decoder} (hp : s.pending = 0) :
    ∃ s', decodeLoop (base64Digits false [a, b]) s = (true, s') ∧ s'.out = s.out ++ [a, b] ∧
      s'.Clean := by
  have ha := a.toNat_lt
  have hb := b.toNat_lt
  obtain ⟨word, hword⟩ : ∃ word, word = a.toNat * 2 ^ 16 + b.toNat * 2 ^ 8 := ⟨_, rfl⟩
  obtain ⟨bits, hbits, heq⟩ := Decoder.three hp (word / 2 ^ 18 % 64) (word / 2 ^ 12 % 64)
    (word / 2 ^ 6 % 64)
  have h₁ : UInt8.ofNat (word / 2 ^ 18 % 64 * 4 + word / 2 ^ 12 % 64 / 16) = a :=
    ofNat_eq_of_mod (by omega)
  have h₂ : UInt8.ofNat (word / 2 ^ 12 % 64 * 16 + word / 2 ^ 6 % 64 / 4) = b :=
    ofNat_eq_of_mod (by omega)
  rw [h₁, h₂] at heq
  refine ⟨{ bits, pending := 2, out := s.out ++ [a, b] }, ?_, rfl, ?_⟩
  · simp only [base64Digits, ← hword, decodeLoop_alphabet, heq]
    rfl
  · intro _
    change bits % 4 = 0
    omega

/-- Three bytes are four digits, and the accumulator is ready for the next group. -/
theorem decodeLoop_three (a b c : UInt8) (rest : Bytes) {s : Decoder} (hp : s.pending = 0) :
    ∃ bits, decodeLoop (base64Digits false (a :: b :: c :: rest)) s =
      decodeLoop (base64Digits false rest) { bits, pending := 0, out := s.out ++ [a, b, c] } := by
  have ha := a.toNat_lt
  have hb := b.toNat_lt
  have hc := c.toNat_lt
  obtain ⟨word, hword⟩ : ∃ word, word = a.toNat * 2 ^ 16 + b.toNat * 2 ^ 8 + c.toNat := ⟨_, rfl⟩
  obtain ⟨bits, heq⟩ := Decoder.four hp (word / 2 ^ 18 % 64) (word / 2 ^ 12 % 64)
    (word / 2 ^ 6 % 64) (word % 64)
  have h₁ : UInt8.ofNat (word / 2 ^ 18 % 64 * 4 + word / 2 ^ 12 % 64 / 16) = a :=
    ofNat_eq_of_mod (by omega)
  have h₂ : UInt8.ofNat (word / 2 ^ 12 % 64 * 16 + word / 2 ^ 6 % 64 / 4) = b :=
    ofNat_eq_of_mod (by omega)
  have h₃ : UInt8.ofNat (word / 2 ^ 6 % 64 * 64 + word % 64) = c := ofNat_eq_of_mod (by omega)
  rw [h₁, h₂, h₃] at heq
  exact ⟨bits, by simp only [base64Digits, ← hword, decodeLoop_alphabet, heq]⟩

/-- The digits of a string decode to the string, with no bit left over. -/
theorem decodeLoop_digits (x : Bytes) (s : Decoder) (hp : s.pending = 0) :
    ∃ s', decodeLoop (base64Digits false x) s = (true, s') ∧ s'.out = s.out ++ x ∧ s'.Clean := by
  induction x using base64Digits.induct false generalizing s with
  | case1 =>
    refine ⟨s, ?_, (List.append_nil _).symm, fun h => absurd hp h⟩
    simp [base64Digits, decodeLoop]
  | case2 a => exact decodeLoop_one a hp
  | case3 a b => exact decodeLoop_two a b hp
  | case4 a b c rest ih =>
    obtain ⟨bits, heq⟩ := decodeLoop_three a b c rest hp
    obtain ⟨s', hrun, hout, hclean⟩ := ih { bits, pending := 0, out := s.out ++ [a, b, c] } rfl
    refine ⟨s', by rw [heq, hrun], ?_, hclean⟩
    simp [hout]

/-! ## The texts that decode -/

/-- A text that decodes starts with the character of a digit. -/
theorem decodeLoop_cons_ok {c : UInt8} {cs : Bytes} {s s' : Decoder}
    (h : decodeLoop (c :: cs) s = (true, s')) :
    ∃ d, d < 64 ∧ alphabet d = c ∧ decodeLoop cs (s.push d) = (true, s') := by
  rw [decodeLoop] at h
  cases hd : digit c with
  | none => rw [hd] at h; cases h
  | some d =>
    rw [hd] at h
    exact ⟨d, (digit_some hd).1, (digit_some hd).2, h⟩

/-- Two digits with no bit left over are the digits of one byte. -/
theorem base64Digits_one {d₁ d₂ : Nat} (h₁ : d₁ < 64) (h₂ : d₂ < 64) (hz : d₂ % 16 = 0) :
    base64Digits false [UInt8.ofNat (d₁ * 4 + d₂ / 16)] = [alphabet d₁, alphabet d₂] := by
  obtain ⟨a, ha⟩ : ∃ a, a = d₁ * 4 + d₂ / 16 := ⟨_, rfl⟩
  have e₁ : a * 2 ^ 16 / 2 ^ 18 % 64 = d₁ := by omega
  have e₂ : a * 2 ^ 16 / 2 ^ 12 % 64 = d₂ := by omega
  have hn : (UInt8.ofNat a).toNat = a := UInt8.toNat_ofNat_of_lt' (by change a < 256; omega)
  rw [← ha]
  simp only [base64Digits, hn, e₁, e₂]
  rfl

/-- Three digits with no bit left over are the digits of two bytes. -/
theorem base64Digits_two {d₁ d₂ d₃ : Nat} (h₁ : d₁ < 64) (h₂ : d₂ < 64) (h₃ : d₃ < 64)
    (hz : d₃ % 4 = 0) :
    base64Digits false [UInt8.ofNat (d₁ * 4 + d₂ / 16), UInt8.ofNat (d₂ * 16 + d₃ / 4)] =
      [alphabet d₁, alphabet d₂, alphabet d₃] := by
  obtain ⟨a, ha⟩ : ∃ a, a = d₁ * 4 + d₂ / 16 := ⟨_, rfl⟩
  obtain ⟨b, hb⟩ : ∃ b, b = (d₂ * 16 + d₃ / 4) % 256 := ⟨_, rfl⟩
  have e₁ : (a * 2 ^ 16 + b * 2 ^ 8) / 2 ^ 18 % 64 = d₁ := by omega
  have e₂ : (a * 2 ^ 16 + b * 2 ^ 8) / 2 ^ 12 % 64 = d₂ := by omega
  have e₃ : (a * 2 ^ 16 + b * 2 ^ 8) / 2 ^ 6 % 64 = d₃ := by omega
  have hn : (UInt8.ofNat a).toNat = a := UInt8.toNat_ofNat_of_lt' (by change a < 256; omega)
  have hm : (UInt8.ofNat (d₂ * 16 + d₃ / 4)).toNat = b := by rw [UInt8.toNat_ofNat', hb]
  rw [← ha]
  simp only [base64Digits, hn, hm, e₁, e₂, e₃]
  rfl

/-- Four digits are the digits of three bytes. -/
theorem base64Digits_three {d₁ d₂ d₃ d₄ : Nat} (h₁ : d₁ < 64) (h₂ : d₂ < 64) (h₃ : d₃ < 64)
    (h₄ : d₄ < 64) (rest : Bytes) :
    base64Digits false (UInt8.ofNat (d₁ * 4 + d₂ / 16) :: UInt8.ofNat (d₂ * 16 + d₃ / 4) ::
        UInt8.ofNat (d₃ * 64 + d₄) :: rest) =
      alphabet d₁ :: alphabet d₂ :: alphabet d₃ :: alphabet d₄ :: base64Digits false rest := by
  obtain ⟨a, ha⟩ : ∃ a, a = d₁ * 4 + d₂ / 16 := ⟨_, rfl⟩
  obtain ⟨b, hb⟩ : ∃ b, b = (d₂ * 16 + d₃ / 4) % 256 := ⟨_, rfl⟩
  obtain ⟨c, hc⟩ : ∃ c, c = (d₃ * 64 + d₄) % 256 := ⟨_, rfl⟩
  have e₁ : (a * 2 ^ 16 + b * 2 ^ 8 + c) / 2 ^ 18 % 64 = d₁ := by omega
  have e₂ : (a * 2 ^ 16 + b * 2 ^ 8 + c) / 2 ^ 12 % 64 = d₂ := by omega
  have e₃ : (a * 2 ^ 16 + b * 2 ^ 8 + c) / 2 ^ 6 % 64 = d₃ := by omega
  have e₄ : (a * 2 ^ 16 + b * 2 ^ 8 + c) % 64 = d₄ := by omega
  have hn : (UInt8.ofNat a).toNat = a := UInt8.toNat_ofNat_of_lt' (by change a < 256; omega)
  have hm : (UInt8.ofNat (d₂ * 16 + d₃ / 4)).toNat = b := by rw [UInt8.toNat_ofNat', hb]
  have hk : (UInt8.ofNat (d₃ * 64 + d₄)).toNat = c := by rw [UInt8.toNat_ofNat', hc]
  rw [← ha]
  simp only [base64Digits, hn, hm, hk, e₁, e₂, e₃, e₄]

/-- A text that decodes with no bit left over is the digits of what it decodes to. The recursion is
by groups of four digits; a single digit at the end is excluded beforehand. -/
theorem decodeLoop_ok : ∀ (t : Bytes) {s s' : Decoder}, s.pending = 0 → t.length % 4 ≠ 1 →
    decodeLoop t s = (true, s') → s'.Clean →
    ∃ x, s'.out = s.out ++ x ∧ base64Digits false x = t ∧ x.length = base64Count t.length
  | [], s, s', _, _, h, _ => by
    cases h
    exact ⟨[], by simp, by simp [base64Digits], rfl⟩
  | [_], _, _, _, hlen, _, _ => absurd rfl hlen
  | [c₁, c₂], s, s', hp, _, hrun, hclean => by
    obtain ⟨d₁, h₁, rfl, hrun₁⟩ := decodeLoop_cons_ok hrun
    obtain ⟨d₂, h₂, rfl, hrun₂⟩ := decodeLoop_cons_ok hrun₁
    obtain ⟨bits, hbits, heq⟩ := Decoder.two hp d₁ d₂
    rw [heq] at hrun₂
    cases hrun₂
    have hz : bits % 16 = 0 := hclean (Nat.succ_ne_zero _)
    exact ⟨_, rfl, base64Digits_one h₁ h₂ (by omega), by simp [base64Count]⟩
  | [c₁, c₂, c₃], s, s', hp, _, hrun, hclean => by
    obtain ⟨d₁, h₁, rfl, hrun₁⟩ := decodeLoop_cons_ok hrun
    obtain ⟨d₂, h₂, rfl, hrun₂⟩ := decodeLoop_cons_ok hrun₁
    obtain ⟨d₃, h₃, rfl, hrun₃⟩ := decodeLoop_cons_ok hrun₂
    obtain ⟨bits, hbits, heq⟩ := Decoder.three hp d₁ d₂ d₃
    rw [heq] at hrun₃
    cases hrun₃
    have hz : bits % 4 = 0 := hclean (Nat.succ_ne_zero _)
    exact ⟨_, rfl, base64Digits_two h₁ h₂ h₃ (by omega), by simp [base64Count]⟩
  | c₁ :: c₂ :: c₃ :: c₄ :: rest, s, s', hp, hlen, hrun, hclean => by
    obtain ⟨d₁, h₁, rfl, hrun₁⟩ := decodeLoop_cons_ok hrun
    obtain ⟨d₂, h₂, rfl, hrun₂⟩ := decodeLoop_cons_ok hrun₁
    obtain ⟨d₃, h₃, rfl, hrun₃⟩ := decodeLoop_cons_ok hrun₂
    obtain ⟨d₄, h₄, rfl, hrun₄⟩ := decodeLoop_cons_ok hrun₃
    obtain ⟨bits, heq⟩ := Decoder.four hp d₁ d₂ d₃ d₄
    rw [heq] at hrun₄
    have hrest : rest.length % 4 ≠ 1 := by
      simp only [List.length_cons] at hlen
      omega
    obtain ⟨x, hout, hx, hcount⟩ := decodeLoop_ok rest rfl hrest hrun₄ hclean
    refine ⟨UInt8.ofNat (d₁ * 4 + d₂ / 16) :: UInt8.ofNat (d₂ * 16 + d₃ / 4) ::
      UInt8.ofNat (d₃ * 64 + d₄) :: x, ?_, ?_, ?_⟩
    · rw [hout, List.append_assoc]
      rfl
    · rw [base64Digits_three h₁ h₂ h₃ h₄, hx]
    · simp only [List.length_cons, hcount, base64Count]
      split <;> split <;> omega

/-! ## The two calls -/

/-- A string of `n` bytes has as many digits as decode to `n` bytes. -/
theorem base64Count_need (n : Nat) :
    base64Count (base64Need false n) = n ∧ base64Need false n % 4 ≠ 1 := by
  simp only [base64Count, base64Need, Bool.false_eq_true, if_false]
  constructor
  · split <;> split <;> omega
  · split <;> omega

/-- **Decoding the digits of a string** gives the string, if it fits. -/
theorem base64Decode_digits {x : Bytes} {cap : Nat} (h : x.length ≤ cap) :
    base64Decode (some (base64Digits false x)) false (some cap) =
      { rc := .ok, stored := x, written := x.length } := by
  obtain ⟨hcount, hmod⟩ := base64Count_need x.length
  obtain ⟨s, hrun, hout, hclean⟩ := decodeLoop_digits x {} rfl
  have hx : s.out = x := hout
  have hno : ¬ (s.pending ≠ 0 ∧ s.bits % 2 ^ s.pending ≠ 0) := fun hs => hs.2 (hclean hs.1)
  change base64Raw (base64Digits false x) cap = _
  rw [base64Raw, length_base64Digits, if_neg hmod, hcount, if_neg (by omega), hrun]
  dsimp only
  rw [if_neg hno, hx]

/-- **A text that is accepted** without padding is the digits of the bytes that are stored, and their
number is the one checked against the capacity. -/
theorem base64Decode_ok {t : Bytes} {cap : Nat}
    (h : (base64Decode (some t) false (some cap)).rc = .ok) :
    ∃ x, base64Decode (some t) false (some cap) =
        { rc := .ok, stored := x, written := x.length } ∧
      base64Digits false x = t ∧ x.length = base64Count t.length ∧ x.length ≤ cap := by
  change (base64Raw t cap).rc = .ok at h
  change ∃ x, base64Raw t cap = _ ∧ _
  unfold base64Raw at h ⊢
  split at h
  · cases h
  next hmod =>
  rw [if_neg hmod]
  split at h
  · cases h
  next hcap =>
  rw [if_neg hcap]
  obtain ⟨⟨fin, s⟩, hrun⟩ : ∃ r, decodeLoop t {} = r := ⟨_, rfl⟩
  rw [hrun] at h ⊢
  cases fin with
  | false => cases h
  | true =>
    dsimp only at h ⊢
    split at h
    · cases h
    next hleft =>
    rw [if_neg hleft]
    have hclean : s.Clean := by
      intro hp
      by_contra hz
      exact hleft ⟨hp, hz⟩
    obtain ⟨x, hout, hx, hcount⟩ := decodeLoop_ok t rfl hmod hrun hclean
    have hs : s.out = x := hout
    exact ⟨x, by rw [hs], hx, hcount, by omega⟩

end EspCfTunnel.Headers
