import EspCfTunnel.Lib.Bytes
import EspCfTunnel.Lib.JsonText

/-!
# Reading the tokens of JSON

`scanNumber` reads a number as far as it goes. It succeeds on the numbers of the grammar that end where
a number should, and on no others (`scanNumber_iff`), so the tokens of a text are read from the left
in one way only: `lexemes_quote`, `lexemes_number` and the like take one token off. Every JSON text
consists of such tokens (`Text.lexemes`).
-/

namespace JsonText

variable {l t n rest : List UInt8} {c : UInt8}

/-! ## Where digits end -/

/-- The list does not go on with a byte that `p` accepts. -/
def Stops (p : UInt8 → Bool) (l : List UInt8) : Prop := ∀ c ∈ l.head?, p c = false

theorem dropWhile_digits (ht : ∀ c ∈ t, digit c = true) (h : Stops digit rest) :
    (t ++ rest).dropWhile digit = rest := by
  induction t with
  | nil =>
    cases rest with
    | nil => rfl
    | cons c rest => rw [List.nil_append, List.dropWhile_cons_of_neg (by simp [h c rfl])]
  | cons c t ih =>
    rw [List.cons_append, List.dropWhile_cons_of_pos (ht c List.mem_cons_self)]
    exact ih fun c hc => ht c (List.mem_cons_of_mem _ hc)

theorem takeWhile_digits (l : List UInt8) : ∀ c ∈ l.takeWhile digit, digit c = true :=
  List.all_eq_true.1 List.all_takeWhile

/-! ## The parts of a number -/

def scanDigits : List UInt8 → Option (List UInt8)
  | [] => none
  | c :: l => if digit c then some (l.dropWhile digit) else none

def scanMinus : List UInt8 → Option (List UInt8)
  | [] => some []
  | c :: l => if c = 45 then if l = [] then none else some l else some (c :: l)

def scanInt : List UInt8 → Option (List UInt8)
  | [] => none
  | c :: l => if !digit c then none else if c = 48 then some l else some (l.dropWhile digit)

def scanFrac : List UInt8 → Option (List UInt8)
  | [] => some []
  | c :: l => if c = 46 then scanDigits l else some (c :: l)

def scanExp : List UInt8 → Option (List UInt8)
  | [] => some []
  | c :: l =>
    if c = 101 ∨ c = 69 then
      match l with
      | [] => none
      | d :: l => scanDigits (if d = 43 ∨ d = 45 then l else d :: l)
    else some (c :: l)

def scanFollow : List UInt8 → Option (List UInt8)
  | [] => some []
  | c :: l => if follow c then some (c :: l) else none

/-- A number and what has to come behind it; the result is what comes behind it. -/
def scanNumber (l : List UInt8) : Option (List UInt8) :=
  (scanMinus l).bind fun l => (scanInt l).bind fun l => (scanFrac l).bind fun l =>
    (scanExp l).bind scanFollow

/-! ### What is read is of the grammar -/

theorem scanDigits_sound (h : scanDigits l = some rest) : ∃ t, Digits t ∧ l = t ++ rest := by
  cases l with
  | nil => cases h
  | cons c l =>
    rw [scanDigits] at h
    split at h
    · next hc =>
      cases h
      refine ⟨c :: l.takeWhile digit, ⟨List.cons_ne_nil _ _, ?_⟩, ?_⟩
      · exact List.forall_mem_cons.2 ⟨hc, takeWhile_digits l⟩
      · rw [List.cons_append, List.takeWhile_append_dropWhile]
    · cases h

theorem scanMinus_sound (h : scanMinus l = some rest) :
    ∃ t, (t = [] ∨ t = [45]) ∧ l = t ++ rest := by
  cases l with
  | nil =>
    cases h
    exact ⟨[], .inl rfl, rfl⟩
  | cons c l =>
    rw [scanMinus] at h
    split at h
    · next hc =>
      split at h
      · cases h
      · cases h
        exact ⟨[45], .inr rfl, by rw [hc]; rfl⟩
    · cases h
      exact ⟨[], .inl rfl, rfl⟩

theorem scanInt_sound (h : scanInt l = some rest) : ∃ t, Int t ∧ l = t ++ rest := by
  cases l with
  | nil => cases h
  | cons c l =>
    rw [scanInt] at h
    split at h
    · cases h
    next hc =>
    split at h
    · next hzero =>
      cases h
      exact ⟨[48], .zero, by rw [hzero]; rfl⟩
    · next hzero =>
      cases h
      refine ⟨c :: l.takeWhile digit, .digits (by simpa using hc) hzero (takeWhile_digits l), ?_⟩
      rw [List.cons_append, List.takeWhile_append_dropWhile]

theorem scanFrac_sound (h : scanFrac l = some rest) : ∃ t, Frac t ∧ l = t ++ rest := by
  cases l with
  | nil =>
    cases h
    exact ⟨[], .none, rfl⟩
  | cons c l =>
    rw [scanFrac] at h
    split at h
    · next hc =>
      obtain ⟨t, ht, rfl⟩ := scanDigits_sound h
      exact ⟨46 :: t, .some ht, by rw [hc]; rfl⟩
    · cases h
      exact ⟨[], .none, rfl⟩

theorem scanExp_sound (h : scanExp l = some rest) : ∃ t, Exp t ∧ l = t ++ rest := by
  cases l with
  | nil =>
    cases h
    exact ⟨[], .none, rfl⟩
  | cons c l =>
    rw [scanExp.eq_def] at h
    dsimp only at h
    split at h
    · next hc =>
      cases l with
      | nil => cases h
      | cons d l =>
        dsimp only at h
        obtain ⟨t, ht, hl⟩ := scanDigits_sound h
        by_cases hd : d = 43 ∨ d = 45
        · rw [if_pos hd] at hl
          have hsign : Sign [d] := by
            rcases hd with rfl | rfl
            · exact .plus
            · exact .minus
          exact ⟨c :: ([d] ++ t), .some hc hsign ht, by rw [hl]; rfl⟩
        · rw [if_neg hd] at hl
          exact ⟨c :: ([] ++ t), .some hc .none ht, by rw [hl]; rfl⟩
    · cases h
      exact ⟨[], .none, rfl⟩

theorem scanFollow_sound (h : scanFollow l = some rest) : Follow rest ∧ l = rest := by
  cases l with
  | nil =>
    cases h
    exact ⟨nofun, rfl⟩
  | cons c l =>
    rw [scanFollow] at h
    split at h
    · next hc =>
      cases h
      refine ⟨fun d hd => ?_, rfl⟩
      cases hd
      exact hc
    · cases h

theorem scanNumber_sound (h : scanNumber l = some rest) :
    ∃ n, Number n ∧ Follow rest ∧ l = n ++ rest := by
  obtain ⟨l₁, h₁, hint⟩ := Option.bind_eq_some_iff.1 h
  obtain ⟨l₂, h₂, hfrac⟩ := Option.bind_eq_some_iff.1 hint
  obtain ⟨l₃, h₃, hexp⟩ := Option.bind_eq_some_iff.1 hfrac
  obtain ⟨l₄, h₄, hend⟩ := Option.bind_eq_some_iff.1 hexp
  obtain ⟨minus, hm, rfl⟩ := scanMinus_sound h₁
  obtain ⟨int, hi, rfl⟩ := scanInt_sound h₂
  obtain ⟨frac, hf, rfl⟩ := scanFrac_sound h₃
  obtain ⟨exp, he, rfl⟩ := scanExp_sound h₄
  obtain ⟨hfollow, rfl⟩ := scanFollow_sound hend
  exact ⟨_, .mk hm hi hf he, hfollow, by simp only [List.append_assoc]⟩

/-! ### What is of the grammar is read -/

theorem scanDigits_complete (ht : Digits t) (h : Stops digit rest) : scanDigits (t ++ rest) = some rest := by
  obtain ⟨hne, hall⟩ := ht
  cases t with
  | nil => exact absurd rfl hne
  | cons c t =>
    rw [List.cons_append, scanDigits, if_pos (hall c List.mem_cons_self),
      dropWhile_digits (fun c hc => hall c (List.mem_cons_of_mem _ hc)) h]

/-- A byte that may follow a number continues none of its parts. -/
theorem follow_stops : ∀ c : UInt8, follow c = true →
    digit c = false ∧ c ≠ 46 ∧ c ≠ 101 ∧ c ≠ 69 ∧ c ≠ 45 :=
  Bytes.forall_byte (by decide +kernel)

theorem Follow.stops (h : Follow rest) : Stops digit rest := fun c hc => (follow_stops c (h c hc)).1

theorem scanFollow_complete (h : Follow rest) : scanFollow rest = some rest := by
  cases rest with
  | nil => rfl
  | cons c rest => rw [scanFollow, if_pos (h c rfl)]

theorem scanExp_complete (ht : Exp t) (h : Follow rest) : scanExp (t ++ rest) = some rest := by
  cases ht with
  | none =>
    cases rest with
    | nil => rfl
    | cons c rest =>
      obtain ⟨-, -, he, hE, -⟩ := follow_stops c (h c rfl)
      rw [List.nil_append, scanExp.eq_def]
      dsimp only
      rw [if_neg (by tauto)]
  | @some e sign t he hsign ht =>
    have hdigits := scanDigits_complete ht h.stops
    rw [List.cons_append, scanExp.eq_def]
    dsimp only
    rw [if_pos he, List.append_assoc]
    cases hsign with
    | none =>
      cases t with
      | nil => exact absurd rfl ht.1
      | cons d t =>
        have hd : ¬ (d = 43 ∨ d = 45) := by
          have hdig := ht.2 d List.mem_cons_self
          rintro (rfl | rfl)
          · cases hdig
          · cases hdig
        rw [List.nil_append, List.cons_append]
        dsimp only
        rw [if_neg hd]
        exact hdigits
    | minus =>
      rw [List.singleton_append]
      dsimp only
      rw [if_pos (.inr rfl), hdigits]
    | plus =>
      rw [List.singleton_append]
      dsimp only
      rw [if_pos (.inl rfl), hdigits]

/-- A fraction ends where the exponent or what follows the number starts. -/
theorem exp_stops (ht : Exp t) (h : Follow rest) :
    Stops digit (t ++ rest) ∧ ∀ c ∈ (t ++ rest).head?, c ≠ 46 := by
  cases ht with
  | none => exact ⟨h.stops, fun c hc => (follow_stops c (h c hc)).2.1⟩
  | some he hsign ht =>
    constructor
    · intro c hc
      cases hc
      rcases he with rfl | rfl <;> rfl
    · intro c hc
      cases hc
      rcases he with rfl | rfl <;> simp

theorem scanFrac_complete (ht : Frac t) (h : Stops digit rest) (hdot : ∀ c ∈ rest.head?, c ≠ 46) :
    scanFrac (t ++ rest) = some rest := by
  cases ht with
  | none =>
    cases rest with
    | nil => rfl
    | cons c rest => rw [List.nil_append, scanFrac, if_neg (hdot c rfl)]
  | some ht => rw [List.cons_append, scanFrac, if_pos rfl, scanDigits_complete ht h]

theorem frac_stops (ht : Frac t) (h : Stops digit rest) : Stops digit (t ++ rest) := by
  cases ht with
  | none => exact h
  | some ht =>
    intro c hc
    cases hc
    rfl

theorem scanInt_complete (ht : Int t) (h : Stops digit rest) : scanInt (t ++ rest) = some rest := by
  cases ht with
  | zero => rfl
  | digits hd h0 ht =>
    rw [List.cons_append, scanInt, if_neg (by simp [hd]), if_neg h0, dropWhile_digits ht h]

theorem Int.head (ht : Int t) : ∃ c t', t = c :: t' ∧ digit c = true := by
  cases ht with
  | zero => exact ⟨48, [], rfl, rfl⟩
  | digits hd _ _ => exact ⟨_, _, rfl, hd⟩

theorem scanMinus_complete (ht : t = [] ∨ t = [45]) (hn : Int n) :
    scanMinus (t ++ (n ++ rest)) = some (n ++ rest) := by
  obtain ⟨c, n', rfl, hc⟩ := hn.head
  rcases ht with rfl | rfl
  · have hne : c ≠ 45 := by
      rintro rfl
      cases hc
    rw [List.nil_append, List.cons_append, scanMinus, if_neg hne]
  · rw [List.singleton_append, scanMinus, if_pos rfl, if_neg (by simp)]

/-- **A number is read exactly.** -/
theorem scanNumber_iff : scanNumber l = some rest ↔ ∃ n, Number n ∧ Follow rest ∧ l = n ++ rest := by
  constructor
  · exact scanNumber_sound
  · rintro ⟨_, ⟨hm, hi, hf, he⟩, hfollow, rfl⟩
    obtain ⟨hstop, hdot⟩ := exp_stops he hfollow
    simp only [List.append_assoc]
    rw [scanNumber, scanMinus_complete hm hi, Option.bind_some,
      scanInt_complete hi (frac_stops hf hstop), Option.bind_some, scanFrac_complete hf hstop hdot,
      Option.bind_some, scanExp_complete he hfollow, Option.bind_some, scanFollow_complete hfollow]

/-! ## The tokens of a text, from the left -/

/-- What is left of a text inside a string. -/
def InString (l : List UInt8) : Prop := ∃ body rest, l = body ++ 34 :: rest ∧ Body body ∧ Lexemes rest

/-- The same, where `escaped` says that a reverse solidus comes before it. -/
def Inside : Bool → List UInt8 → Prop
  | false, l => InString l
  | true, l => ∃ c rest, l = c :: rest ∧ 32 ≤ c ∧ InString rest

theorem Body.cons_cases (h : Body t) (ht : t = c :: l) :
    32 ≤ c ∧ ((c ≠ 34 ∧ c ≠ 92 ∧ Body l) ∨ (c = 92 ∧ ∃ d r, l = d :: r ∧ 32 ≤ d ∧ Body r)) := by
  cases h with
  | nil => cases ht
  | plain hlow hq hb ht' =>
    cases ht
    exact ⟨hlow, .inl ⟨hq, hb, ht'⟩⟩
  | escaped hlow ht' =>
    cases ht
    exact ⟨by simp, .inr ⟨rfl, _, _, rfl, hlow, ht'⟩⟩

theorem inside_nil (escaped : Bool) : ¬ Inside escaped [] := by
  cases escaped with
  | false =>
    rintro ⟨body, rest, h, -⟩
    exact absurd h.symm (by simp)
  | true =>
    rintro ⟨c, rest, h, -⟩
    cases h

/-- One byte of a string and what comes behind it. -/
theorem InString.cons (h : InString (c :: l)) :
    (c = 34 ∧ Lexemes l) ∨ (c = 92 ∧ Inside true l) ∨ (32 ≤ c ∧ c ≠ 34 ∧ c ≠ 92 ∧ InString l) := by
  obtain ⟨body, rest, hl, hbody, hrest⟩ := h
  cases body with
  | nil =>
    cases hl
    exact .inl ⟨rfl, hrest⟩
  | cons d body =>
    cases hl
    obtain ⟨hlow, ⟨hq, hb, ht⟩ | ⟨rfl, e, r, rfl, he, hr⟩⟩ := hbody.cons_cases rfl
    · exact .inr (.inr ⟨hlow, hq, hb, body, rest, rfl, ht, hrest⟩)
    · exact .inr (.inl ⟨rfl, e, _, rfl, he, r, rest, rfl, hr, hrest⟩)

theorem inside_low {escaped : Bool} (hc : c < 32) : ¬ Inside escaped (c :: l) := by
  intro h
  cases escaped with
  | false =>
    rcases InString.cons h with ⟨rfl, -⟩ | ⟨rfl, -⟩ | ⟨hlow, -⟩
    · exact absurd hc (by simp)
    · exact absurd hc (by simp)
    · exact absurd hlow (UInt8.not_le.2 hc)
  | true =>
    obtain ⟨d, rest, hl, hd, -⟩ := h
    cases hl
    exact absurd hd (UInt8.not_le.2 hc)

theorem inside_escaped (hc : 32 ≤ c) : Inside true (c :: l) ↔ InString l := by
  constructor
  · rintro ⟨d, rest, hl, -, h⟩
    cases hl
    exact h
  · exact fun h => ⟨c, l, rfl, hc, h⟩

theorem inside_solidus : InString (92 :: l) ↔ Inside true l := by
  constructor
  · intro h
    rcases h.cons with ⟨h, -⟩ | ⟨-, h⟩ | ⟨-, -, h, -⟩
    · exact absurd h (by simp)
    · exact h
    · exact absurd rfl h
  · rintro ⟨c, _, rfl, hc, body, rest, rfl, hbody, hrest⟩
    exact ⟨92 :: c :: body, rest, rfl, .escaped hc hbody, hrest⟩

theorem inside_quote : InString (34 :: l) ↔ Lexemes l := by
  constructor
  · intro h
    rcases h.cons with ⟨-, h⟩ | ⟨h, -⟩ | ⟨-, h, -⟩
    · exact h
    · exact absurd h (by simp)
    · exact absurd rfl h
  · exact fun h => ⟨[], l, rfl, .nil, h⟩

theorem inside_plain (hlow : 32 ≤ c) (hq : c ≠ 34) (hb : c ≠ 92) :
    InString (c :: l) ↔ InString l := by
  constructor
  · intro h
    rcases h.cons with ⟨h, -⟩ | ⟨h, -⟩ | ⟨-, -, -, h⟩
    · exact absurd h hq
    · exact absurd h hb
    · exact h
  · rintro ⟨body, rest, rfl, hbody, hrest⟩
    exact ⟨c :: body, rest, rfl, .plain hlow hq hb hbody, hrest⟩

theorem Number.head (h : Number n) : ∃ c t, n = c :: t ∧ numberStart c = true := by
  obtain ⟨hm, hi, -, -⟩ := h
  obtain ⟨c, t, rfl, hc⟩ := hi.head
  rcases hm with rfl | rfl
  · exact ⟨c, _, rfl, by simp [numberStart, hc]⟩
  · exact ⟨45, _, rfl, by simp [numberStart]⟩

/-- The first token of a text. -/
theorem Lexemes.cons_cases (h : Lexemes t) (ht : t = c :: l) :
    (c = 34 ∧ InString l) ∨
      (numberStart c = true ∧ ∃ rest, scanNumber (c :: l) = some rest ∧ Lexemes rest) ∨
      (JsonText.other c = true ∧ Lexemes l) := by
  cases h with
  | nil => cases ht
  | string hb hr =>
    cases ht
    exact .inl ⟨rfl, _, _, rfl, hb, hr⟩
  | @number n rest hn hf hr =>
    obtain ⟨d, n, rfl, hd⟩ := hn.head
    cases ht
    exact .inr (.inl ⟨hd, rest, scanNumber_iff.2 ⟨_, hn, hf, rfl⟩, hr⟩)
  | other hc hr =>
    cases ht
    exact .inr (.inr ⟨hc, hr⟩)

theorem lexemes_quote : Lexemes (34 :: l) ↔ InString l := by
  constructor
  · intro h
    rcases h.cons_cases rfl with ⟨-, h⟩ | ⟨h, -⟩ | ⟨h, -⟩
    · exact h
    · cases h
    · cases h
  · rintro ⟨body, rest, rfl, hb, hr⟩
    exact .string hb hr

theorem lexemes_number (hc : numberStart c = true) :
    Lexemes (c :: l) ↔ ∃ rest, scanNumber (c :: l) = some rest ∧ Lexemes rest := by
  constructor
  · intro h
    rcases h.cons_cases rfl with ⟨rfl, -⟩ | ⟨-, h⟩ | ⟨h, -⟩
    · cases hc
    · exact h
    · rw [JsonText.other, hc] at h
      simp at h
  · rintro ⟨rest, hscan, hrest⟩
    obtain ⟨n, hn, hf, hl⟩ := scanNumber_iff.1 hscan
    rw [hl]
    exact .number hn hf hrest

theorem lexemes_other (hc : JsonText.other c = true) : Lexemes (c :: l) ↔ Lexemes l := by
  constructor
  · intro h
    rcases h.cons_cases rfl with ⟨rfl, -⟩ | ⟨h, -⟩ | ⟨-, h⟩
    · cases hc
    · rw [JsonText.other, h] at hc
      simp at hc
    · exact h
  · exact .other hc

theorem lexemes_control (hc : c < 32) (hspace : space c = false) : ¬ Lexemes (c :: l) := by
  intro h
  have hlow : ¬ 32 ≤ c := UInt8.not_le.2 hc
  rcases h.cons_cases rfl with ⟨rfl, -⟩ | ⟨h, -⟩ | ⟨h, -⟩
  · exact hlow (by simp)
  · have hstart : c = 45 ∨ (48 ≤ c ∧ c ≤ 57) := by simpa [numberStart, digit] using h
    rcases hstart with rfl | ⟨h, -⟩
    · exact hlow (by simp)
    · exact hlow (UInt8.le_trans (by simp) h)
  · rw [JsonText.other, hspace] at h
    simp [hlow] at h

/-! ## Every text consists of tokens -/

theorem other_of_space : ∀ c : UInt8, space c = true → JsonText.other c = true ∧ follow c = true :=
  Bytes.forall_byte (by decide +kernel)

theorem Ws.lexemes (ht : Ws t) (hr : Lexemes rest) : Lexemes (t ++ rest) := by
  induction t with
  | nil => exact hr
  | cons c t ih =>
    have hc := (other_of_space c (ht c List.mem_cons_self)).1
    exact .other hc (ih fun d hd => ht d (List.mem_cons_of_mem c hd))

theorem Ws.follow (ht : Ws t) (hr : Follow rest) : Follow (t ++ rest) := by
  cases t with
  | nil => exact hr
  | cons c t =>
    intro d hd
    cases hd
    exact (other_of_space c (ht c List.mem_cons_self)).2

theorem Structural.lexemes (ht : Structural c t) (hc : JsonText.other c = true) (hr : Lexemes rest) :
    Lexemes (t ++ rest) := by
  obtain ⟨hb, ha⟩ := ht
  rw [List.append_assoc, List.cons_append]
  exact hb.lexemes (.other hc (ha.lexemes hr))

theorem Structural.follow (ht : Structural c t) (hc : JsonText.follow c = true) :
    Follow (t ++ rest) := by
  obtain ⟨hb, -⟩ := ht
  rw [List.append_assoc, List.cons_append]
  refine hb.follow ?_
  intro d hd
  cases hd
  exact hc

theorem Literal.lexemes (ht : Literal t) (hr : Lexemes rest) : Lexemes (t ++ rest) := by
  cases ht with
  | false => exact .other rfl (.other rfl (.other rfl (.other rfl (.other rfl hr))))
  | null => exact .other rfl (.other rfl (.other rfl (.other rfl hr)))
  | true => exact .other rfl (.other rfl (.other rfl (.other rfl hr)))

/-- The bytes of a code point are the code point itself or outside ASCII. -/
theorem utf8_bytes (c : Char) :
    ∀ b ∈ String.utf8EncodeChar c, b.toNat = c.toNat ∨ 128 ≤ b.toNat := by
  fun_cases String.utf8EncodeChar c with
  | case1 v h =>
    intro b hb
    rw [List.mem_singleton] at hb
    refine .inl ?_
    rw [hb, UInt8.toNat_ofNat']
    exact Nat.mod_eq_of_lt (by omega)
  | case2 v h h' =>
    simp only [List.forall_mem_cons, UInt8.toNat_ofNat', List.not_mem_nil, false_implies, implies_true,
      and_true]
    split_ands <;> omega
  | case3 v h h' h'' =>
    simp only [List.forall_mem_cons, UInt8.toNat_ofNat', List.not_mem_nil, false_implies, implies_true,
      and_true]
    split_ands <;> omega
  | case4 v h h' h'' =>
    simp only [List.forall_mem_cons, UInt8.toNat_ofNat', List.not_mem_nil, false_implies, implies_true,
      and_true]
    split_ands <;> omega

/-- Bytes that need no escape, in front of a body. -/
theorem Body.append_plain (ht : ∀ b ∈ t, 32 ≤ b ∧ b ≠ 34 ∧ b ≠ 92) (hr : Body rest) :
    Body (t ++ rest) := by
  induction t with
  | nil => exact hr
  | cons b t ih =>
    obtain ⟨⟨hlow, hq, hb⟩, ht'⟩ := List.forall_mem_cons.1 ht
    exact .plain hlow hq hb (ih ht')

theorem CharText.body (ht : CharText t) (hr : Body rest) : Body (t ++ rest) := by
  cases ht with
  | @unescaped c hlow hq hb =>
    refine .append_plain ?_ hr
    intro b hmem
    have hq' : c.toNat ≠ 34 := fun h => hq (Char.ext (UInt32.toNat_inj.1 h))
    have hb' : c.toNat ≠ 92 := fun h => hb (Char.ext (UInt32.toNat_inj.1 h))
    simp only [ne_eq, UInt8.le_iff_toNat_le, ← UInt8.toNat_inj, UInt8.reduceToNat]
    rcases utf8_bytes c b hmem with h | h
    · omega
    · omega
  | @escaped c hc =>
    refine .escaped ?_ hr
    revert c
    simp
  | @unicode a b c d ha hb hc hd =>
    have hplain : ∀ x : UInt8, hexDigit x = true → 32 ≤ x ∧ x ≠ 34 ∧ x ≠ 92 :=
      Bytes.forall_byte (by decide +kernel)
    refine .escaped (by simp) (.append_plain (t := [a, b, c, d]) ?_ hr)
    simp only [List.forall_mem_cons, List.not_mem_nil, false_implies, implies_true, and_true]
    exact ⟨hplain a ha, hplain b hb, hplain c hc, hplain d hd⟩

theorem Chars.body (ht : Chars t) : Body t := by
  induction ht with
  | nil => exact .nil
  | cons hc _ ih => exact hc.body ih

theorem Str.lexemes (ht : Str t) (hr : Lexemes rest) : Lexemes (t ++ rest) := by
  obtain ⟨ht⟩ := ht
  rw [List.cons_append, List.append_assoc, List.singleton_append]
  exact .string ht.body hr

mutual

/-- A value ends before what may follow a number. -/
theorem Value.lexemes {t rest : List UInt8} :
    Value t → Follow rest → Lexemes rest → Lexemes (t ++ rest)
  | .literal h, _, hr => h.lexemes hr
  | .number h, hf, hr => .number h hf hr
  | .string h, _, hr => h.lexemes hr
  | .emptyObject hl hr', _, hr => by
    rw [List.append_assoc]
    exact hl.lexemes rfl (hr'.lexemes rfl hr)
  | .object hl ht hr', _, hr => by
    rw [List.append_assoc, List.append_assoc]
    exact hl.lexemes rfl (ht.lexemes (hr'.follow rfl) (hr'.lexemes rfl hr))
  | .emptyArray hl hr', _, hr => by
    rw [List.append_assoc]
    exact hl.lexemes rfl (hr'.lexemes rfl hr)
  | .array hl ht hr', _, hr => by
    rw [List.append_assoc, List.append_assoc]
    exact hl.lexemes rfl (ht.lexemes (hr'.follow rfl) (hr'.lexemes rfl hr))

theorem Members.lexemes {t rest : List UInt8} :
    Members t → Follow rest → Lexemes rest → Lexemes (t ++ rest)
  | .one hn hc hv, hf, hr => by
    rw [List.append_assoc, List.append_assoc]
    exact hn.lexemes (hc.lexemes rfl (hv.lexemes hf hr))
  | .more hn hc hv hs ht, hf, hr => by
    simp only [List.append_assoc]
    exact hn.lexemes (hc.lexemes rfl
      (hv.lexemes (hs.follow rfl) (hs.lexemes rfl (ht.lexemes hf hr))))

theorem Items.lexemes {t rest : List UInt8} :
    Items t → Follow rest → Lexemes rest → Lexemes (t ++ rest)
  | .one hv, hf, hr => hv.lexemes hf hr
  | .more hv hs ht, hf, hr => by
    rw [List.append_assoc, List.append_assoc]
    exact hv.lexemes (hs.follow rfl) (hs.lexemes rfl (ht.lexemes hf hr))

end

/-- **A JSON text consists of tokens.** -/
theorem Text.lexemes (h : Text t) : Lexemes t := by
  obtain ⟨hb, hv, ha⟩ := h
  have hend : Follow [] := nofun
  rw [← List.append_nil (_ ++ _), List.append_assoc, List.append_assoc]
  exact hb.lexemes (hv.lexemes (ha.follow hend) (ha.lexemes .nil))

end JsonText
