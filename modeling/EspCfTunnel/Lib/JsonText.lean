import Mathlib.Tactic.Common

/-!
# The grammar of JSON

RFC 8259 over the bytes of a text in UTF-8. `Number`, `Str` and `Value` are the productions of the
same names; `Lexemes` is what is left of the grammar when only the tokens are looked at.
-/

namespace JsonText

/-- A decimal digit. -/
def digit (c : UInt8) : Bool := 48 ≤ c ∧ c ≤ 57

/-- `ws`, one byte of it: space, tab, line feed, carriage return. -/
def space (c : UInt8) : Bool := c = 32 ∨ c = 9 ∨ c = 10 ∨ c = 13

/-- A hexadecimal digit. -/
def hexDigit (c : UInt8) : Bool := digit c ∨ (65 ≤ c ∧ c ≤ 70) ∨ (97 ≤ c ∧ c ≤ 102)

/-! ## Numbers -/

/-- `1*DIGIT` -/
def Digits (t : List UInt8) : Prop := t ≠ [] ∧ ∀ c ∈ t, digit c = true

/-- `int = zero / ( digit1-9 *DIGIT )` -/
inductive Int : List UInt8 → Prop
  | zero : Int [48]
  | digits {d : UInt8} {t : List UInt8} (hd : digit d = true) (h0 : d ≠ 48)
      (ht : ∀ c ∈ t, digit c = true) : Int (d :: t)

/-- `[ frac ]` with `frac = decimal-point 1*DIGIT`. -/
inductive Frac : List UInt8 → Prop
  | none : Frac []
  | some {t : List UInt8} (ht : Digits t) : Frac (46 :: t)

/-- `[ minus / plus ]` -/
inductive Sign : List UInt8 → Prop
  | none : Sign []
  | minus : Sign [45]
  | plus : Sign [43]

/-- `[ exp ]` with `exp = e [ minus / plus ] 1*DIGIT`. -/
inductive Exp : List UInt8 → Prop
  | none : Exp []
  | some {e : UInt8} {sign t : List UInt8} (he : e = 101 ∨ e = 69) (hsign : Sign sign)
      (ht : Digits t) : Exp (e :: (sign ++ t))

/-- `number = [ minus ] int [ frac ] [ exp ]` -/
inductive Number : List UInt8 → Prop
  | mk {minus int frac exp : List UInt8} (hm : minus = [] ∨ minus = [45]) (hi : Int int)
      (hf : Frac frac) (he : Exp exp) : Number (minus ++ (int ++ (frac ++ exp)))

/-! ## Strings -/

/-- `char`: a code point that needs no escape, in UTF-8, or an escape. -/
inductive CharText : List UInt8 → Prop
  | unescaped {c : Char} (hlow : 32 ≤ c.toNat) (hq : c ≠ '"') (hb : c ≠ '\\') :
      CharText (String.utf8EncodeChar c)
  | escaped {c : UInt8} (hc : c ∈ ([34, 92, 47, 98, 102, 110, 114, 116] : List UInt8)) :
      CharText [92, c]
  | unicode {a b c d : UInt8} (ha : hexDigit a = true) (hb : hexDigit b = true)
      (hc : hexDigit c = true) (hd : hexDigit d = true) : CharText [92, 117, a, b, c, d]

/-- `*char` -/
inductive Chars : List UInt8 → Prop
  | nil : Chars []
  | cons {c t : List UInt8} (hc : CharText c) (ht : Chars t) : Chars (c ++ t)

/-- `string = quotation-mark *char quotation-mark` -/
inductive Str : List UInt8 → Prop
  | mk {t : List UInt8} (ht : Chars t) : Str (34 :: (t ++ [34]))

/-! ## Values -/

/-- `ws` -/
def Ws (t : List UInt8) : Prop := ∀ c ∈ t, space c = true

/-- A structural character with the white space around it. -/
inductive Structural (c : UInt8) : List UInt8 → Prop
  | mk {before after : List UInt8} (hb : Ws before) (ha : Ws after) :
      Structural c (before ++ c :: after)

/-- `false`, `null` and `true`. -/
inductive Literal : List UInt8 → Prop
  | false : Literal [102, 97, 108, 115, 101]
  | null : Literal [110, 117, 108, 108]
  | true : Literal [116, 114, 117, 101]

mutual

/-- `value = false / null / true / object / array / number / string` -/
inductive Value : List UInt8 → Prop
  | literal {t : List UInt8} (h : Literal t) : Value t
  | number {t : List UInt8} (h : Number t) : Value t
  | string {t : List UInt8} (h : Str t) : Value t
  | emptyObject {l r : List UInt8} (hl : Structural 123 l) (hr : Structural 125 r) : Value (l ++ r)
  | object {l t r : List UInt8} (hl : Structural 123 l) (ht : Members t) (hr : Structural 125 r) :
      Value (l ++ (t ++ r))
  | emptyArray {l r : List UInt8} (hl : Structural 91 l) (hr : Structural 93 r) : Value (l ++ r)
  | array {l t r : List UInt8} (hl : Structural 91 l) (ht : Items t) (hr : Structural 93 r) :
      Value (l ++ (t ++ r))

/-- `member *( value-separator member )` with `member = string name-separator value`. -/
inductive Members : List UInt8 → Prop
  | one {name colon value : List UInt8} (hn : Str name) (hc : Structural 58 colon)
      (hv : Value value) : Members (name ++ (colon ++ value))
  | more {name colon value comma rest : List UInt8} (hn : Str name) (hc : Structural 58 colon)
      (hv : Value value) (hs : Structural 44 comma) (hr : Members rest) :
      Members (name ++ (colon ++ (value ++ (comma ++ rest))))

/-- `value *( value-separator value )` -/
inductive Items : List UInt8 → Prop
  | one {value : List UInt8} (hv : Value value) : Items value
  | more {value comma rest : List UInt8} (hv : Value value) (hs : Structural 44 comma)
      (hr : Items rest) : Items (value ++ (comma ++ rest))

end

/-- `JSON-text = ws value ws` -/
inductive Text : List UInt8 → Prop
  | mk {before value after : List UInt8} (hb : Ws before) (hv : Value value) (ha : Ws after) :
      Text (before ++ (value ++ after))

/-! ## Tokens -/

/-- The bytes between the quotation marks: no control character, and no quotation mark that is not
behind a reverse solidus. -/
inductive Body : List UInt8 → Prop
  | nil : Body []
  | plain {c : UInt8} {t : List UInt8} (hlow : 32 ≤ c) (hq : c ≠ 34) (hb : c ≠ 92) (ht : Body t) :
      Body (c :: t)
  | escaped {c : UInt8} {t : List UInt8} (hlow : 32 ≤ c) (ht : Body t) : Body (92 :: c :: t)

/-- What may come behind a number: the end, `,`, `]`, `}` or white space. -/
def follow (c : UInt8) : Bool := c = 44 ∨ c = 93 ∨ c = 125 ∨ space c

def Follow (t : List UInt8) : Prop := ∀ c ∈ t.head?, follow c = true

/-- A byte that starts a number. -/
def numberStart (c : UInt8) : Bool := c = 45 ∨ digit c

/-- A byte that is a token of its own, or a part of one that is no string and no number: not a
control character other than white space. -/
def other (c : UInt8) : Bool := c ≠ 34 ∧ !numberStart c ∧ (32 ≤ c ∨ space c)

/-- A text read from the left, with the strings skipped: each string is closed, and each number is one
of the grammar and ends where it should. -/
inductive Lexemes : List UInt8 → Prop
  | nil : Lexemes []
  | string {body rest : List UInt8} (hb : Body body) (hr : Lexemes rest) :
      Lexemes (34 :: (body ++ 34 :: rest))
  | number {n rest : List UInt8} (hn : Number n) (hf : Follow rest) (hr : Lexemes rest) :
      Lexemes (n ++ rest)
  | other {c : UInt8} {rest : List UInt8} (hc : other c = true) (hr : Lexemes rest) :
      Lexemes (c :: rest)

end JsonText
