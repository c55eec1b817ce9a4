import EspCfTunnel.Core
import EspCfTunnel.Lib.StateLogic

/-!
# The lexeme check

`valid_lexemes` of `cf_json.c`, which looks at a text before cJSON does. Its index and the two flags of
the string automaton are the state of a round; the number scanner takes an index and gives the one
behind what it has read. Every index of the text that is read is noted.
-/

namespace EspCfTunnel.Lexemes

open EspCfTunnel StateLogic

/-- The local variables of `valid_lexemes`, and the indices that were read. -/
structure Scan where
  i : Nat := 0
  string : Bool := false
  escaped : Bool := false
  reads : List Nat := []

abbrev M := StateM Scan

/-- `number_digit` -/
def numberDigit (c : UInt8) : Bool := 48 ≤ c ∧ c ≤ 57

section
variable (b : Buffer)

/-- `in.ptr[p]` -/
def byteAt (p : Nat) : M UInt8 := do
  modify fun s => { s with reads := p :: s.reads }
  return b.ptr p

/-- `while (p < in.len && number_digit(in.ptr[p])) ++p`, for `n` rounds at most. -/
def skipDigits : Nat → Nat → M Nat
  | 0, p => return p
  | n + 1, p => do
    if p < b.len then
      let c ← byteAt b p
      if numberDigit c then skipDigits n (p + 1) else return p
    else return p

/-- The digits from `p` on, of which there is one at least. -/
def digits (p : Nat) : M (Option Nat) := do
  let c ← byteAt b p
  if !numberDigit c then return none
  else
    let q ← skipDigits b (b.len - p) p
    return some q

/-! ## The number scanner -/

def minus (p : Nat) : M (Option Nat) := do
  let c ← byteAt b p
  if c = 45 then
    if p + 1 = b.len then return none else return some (p + 1)
  else return some p

def integer (p : Nat) : M (Option Nat) := do
  let c ← byteAt b p
  if !numberDigit c then return none
  else
    let c ← byteAt b p
    if c = 48 then return some (p + 1)
    else
      let q ← skipDigits b (b.len - p) p
      return some q

def fraction (p : Nat) : M (Option Nat) := do
  if p < b.len then
    let c ← byteAt b p
    if c = 46 then
      if p + 1 = b.len then return none else digits b (p + 1)
    else return some p
  else return some p

def exponent (p : Nat) : M (Option Nat) := do
  if p < b.len then
    let c ← byteAt b p
    if c = 101 ∨ c = 69 then
      if p + 1 = b.len then return none
      else
        let c ← byteAt b (p + 1)
        let q := if c = 43 ∨ c = 45 then p + 2 else p + 1
        if q = b.len then return none else digits b q
    else return some p
  else return some p

def follower (p : Nat) : M (Option Nat) := do
  if p < b.len then
    let c ← byteAt b p
    if c ≠ 44 ∧ c ≠ 125 ∧ c ≠ 93 ∧ c ≠ 32 ∧ c ≠ 9 ∧ c ≠ 13 ∧ c ≠ 10 then return none
    else return some p
  else return some p

/-- One part of a number after another. -/
def andThen (x y : Nat → M (Option Nat)) (p : Nat) : M (Option Nat) := do
  match ← x p with
  | none => return none
  | some q => y q

def number : Nat → M (Option Nat) :=
  andThen (minus b) (andThen (integer b) (andThen (fraction b) (andThen (exponent b) (follower b))))

/-! ## The loop -/

/-- A byte inside a string. -/
def stringByte (c : UInt8) : M (Option Bool) := do
  let s ← get
  if c < 32 then return some false
  else if s.escaped then
    set { s with escaped := false, i := s.i + 1 }
    return none
  else if c = 92 then
    set { s with escaped := true, i := s.i + 1 }
    return none
  else if c = 34 then
    set { s with string := false, i := s.i + 1 }
    return none
  else
    set { s with i := s.i + 1 }
    return none

/-- The body of the loop, with the test before it and the step behind it. -/
def lexemeRound : M (Option Bool) := do
  let s ← get
  if s.i ≥ b.len then return some (!s.string)
  else
    let c ← byteAt b s.i
    if s.string then stringByte c
    else if c = 34 then
      modify fun s => { s with string := true, i := s.i + 1 }
      return none
    else if c < 32 ∧ c ≠ 9 ∧ c ≠ 13 ∧ c ≠ 10 then return some false
    else if c = 45 ∨ numberDigit c then
      match ← number b s.i with
      | none => return some false
      | some p =>
        -- `i = p - 1`, and then the step of the loop.
        modify fun s => { s with i := p - 1 + 1 }
        return none
    else
      modify fun s => { s with i := s.i + 1 }
      return none

/-- `valid_lexemes`, for `n` rounds at most. -/
def validLexemes (n : Nat) : Option Bool × Scan := rounds (lexemeRound b) n {}

end

end EspCfTunnel.Lexemes
