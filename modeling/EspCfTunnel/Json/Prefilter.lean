import EspCfTunnel.Json.Lexemes
import EspCfTunnel.Lib.JsonLexer

/-!
# What the lexeme check lets through

Each part of the number scanner does on the indices what its namesake in `JsonText` does on the rest
of the text (`Scans`). So a round of the loop takes one token off, or one byte of a string, and the
loop keeps what is to be decided (`Looking`): whether the text consists of tokens.
-/

namespace EspCfTunnel.Lexemes

open EspCfTunnel StateLogic JsonText

variable {b : Buffer}

/-- What is left of the text at `p`. -/
def rest (b : Buffer) (p : Nat) : Bytes := b.bytes.drop p

theorem rest_lt {p : Nat} (h : p < b.len) : rest b p = b.ptr p :: rest b (p + 1) := by
  have hlen : p < b.bytes.length := by simpa using h
  have hbyte : b.bytes[p] = b.ptr p := by
    have hget := Buffer.getElem?_bytes h
    rw [List.getElem?_eq_getElem hlen] at hget
    exact Option.some_inj.1 hget
  rw [rest, List.drop_eq_getElem_cons hlen, hbyte, rest]

theorem rest_ge {p : Nat} (h : b.len ≤ p) : rest b p = [] := by
  rw [rest, List.drop_eq_nil_iff, Buffer.length_bytes]
  exact h

theorem length_rest (b : Buffer) (p : Nat) : (rest b p).length = b.len - p := by
  rw [rest, List.length_drop, Buffer.length_bytes]

/-! ## The number scanner -/

/-- As `s₀`, but that more of the text may have been read. -/
structure Reading (b : Buffer) (s₀ s : Scan) : Prop where
  i : s.i = s₀.i
  string : s.string = s₀.string
  escaped : s.escaped = s₀.escaped
  reads : ∀ p ∈ s.reads, p < b.len

/-- The index `q` is where the text `r` is left, if there is one. -/
def Lands (b : Buffer) (r : Option Bytes) : Option Nat → Prop
  | none => r = none
  | some q => q ≤ b.len ∧ r = some (rest b q)

/-- The program gives the index of what `r` says. -/
def Scans (b : Buffer) (x : M (Option Nat)) (r : Option Bytes) : Prop :=
  ∀ s₀, Triple (Reading b s₀) x fun q s => Reading b s₀ s ∧ Lands b r q

theorem Scans.fail : Scans b (pure none) none := fun _ _ h => ⟨h, rfl⟩

theorem Scans.at {q : Nat} (h : q ≤ b.len) : Scans b (pure (some q)) (some (rest b q)) :=
  fun _ _ hs => ⟨hs, h, rfl⟩

/-- Behind the text there is nothing to read. -/
theorem Scans.stay {p : Nat} {g : Bytes → Option Bytes} (h : p ≤ b.len) (hge : ¬ p < b.len)
    (hg : g [] = some []) : Scans b (pure (some p)) (g (rest b p)) := by
  have hstay := Scans.at h
  rw [rest_ge (not_lt.1 hge)] at hstay ⊢
  rwa [hg]

theorem byteAt_triple {s₀ : Scan} {p : Nat} (h : p < b.len) :
    Triple (Reading b s₀) (byteAt b p) fun c s => c = b.ptr p ∧ Reading b s₀ s :=
  fun _ hs => ⟨rfl, hs.i, hs.string, hs.escaped, List.forall_mem_cons.2 ⟨h, hs.reads⟩⟩

theorem Scans.byte {p : Nat} {f : UInt8 → M (Option Nat)} {r : Option Bytes} (h : p < b.len)
    (hf : Scans b (f (b.ptr p)) r) : Scans b (byteAt b p >>= f) r :=
  fun s₀ => (byteAt_triple h).bind_eq (hf s₀)

theorem Scans.ite {c : Prop} [Decidable c] {x y : M (Option Nat)} {r : Option Bytes}
    (ht : c → Scans b x r) (he : ¬ c → Scans b y r) : Scans b (if c then x else y) r :=
  fun s₀ => .ite (fun h => ht h s₀) fun h => he h s₀

theorem numberDigit_eq : numberDigit = digit := rfl

theorem skipDigits_triple {s₀ : Scan} {n p : Nat} (hp : p ≤ b.len) (hn : b.len - p ≤ n) :
    Triple (Reading b s₀) (skipDigits b n p) fun q s =>
      Reading b s₀ s ∧ q ≤ b.len ∧ rest b q = (rest b p).dropWhile digit := by
  induction n generalizing p with
  | zero =>
    have hend : rest b p = [] := rest_ge (by omega)
    refine .ret fun s hs => ⟨hs, hp, ?_⟩
    rw [hend]
    rfl
  | succ n ih =>
    rw [skipDigits]
    refine .ite (fun hlt => ?_) fun hge => ?_
    · refine (byteAt_triple hlt).bind_eq ?_
      rw [rest_lt hlt]
      refine .ite (fun hc => ?_) fun hc => ?_
      all_goals rw [numberDigit_eq] at hc
      · rw [List.dropWhile_cons_of_pos hc]
        exact ih (by omega) (by omega)
      · rw [List.dropWhile_cons_of_neg hc, ← rest_lt hlt]
        exact fun s hs => ⟨hs, hp, rfl⟩
    · have hend : rest b p = [] := rest_ge (by omega)
      refine .ret fun s hs => ⟨hs, hp, ?_⟩
      rw [hend]
      rfl

/-- The loop over digits, of which the first is known. -/
theorem Scans.skip {p : Nat} (h : p < b.len) (hc : digit (b.ptr p) = true) :
    Scans b (do let q ← skipDigits b (b.len - p) p; return some q)
      (some ((rest b (p + 1)).dropWhile digit)) := by
  intro s₀
  refine (skipDigits_triple (Nat.le_of_lt h) (Nat.le_refl _)).bind fun q => ?_
  rintro s ⟨hs, hq, hrest⟩
  rw [rest_lt h, List.dropWhile_cons_of_pos hc] at hrest
  exact ⟨hs, hq, congrArg some hrest.symm⟩

theorem digits_scans {p : Nat} (h : p < b.len) : Scans b (digits b p) (scanDigits (rest b p)) := by
  rw [rest_lt h, scanDigits]
  refine .byte h (.ite (fun hc => ?_) fun hc => ?_)
  · rw [if_neg (by simpa [numberDigit_eq] using hc)]
    exact .fail
  · have hdigit : digit (b.ptr p) = true := by simpa [numberDigit_eq] using hc
    rw [if_pos hdigit]
    exact .skip h hdigit

theorem minus_scans {p : Nat} (h : p < b.len) : Scans b (minus b p) (scanMinus (rest b p)) := by
  rw [rest_lt h, scanMinus]
  refine .byte h (.ite (fun hc => ?_) fun hc => ?_)
  · rw [if_pos hc]
    refine .ite (fun hend => ?_) fun hend => ?_
    · rw [if_pos (rest_ge (by omega))]
      exact .fail
    · rw [rest_lt (p := p + 1) (by omega), if_neg (List.cons_ne_nil _ _), ← rest_lt (by omega)]
      exact .at (by omega)
  · rw [if_neg hc, ← rest_lt h]
    exact .at (by omega)

theorem integer_scans {p : Nat} (h : p < b.len) : Scans b (integer b p) (scanInt (rest b p)) := by
  rw [rest_lt h, scanInt]
  refine .byte h (.ite (fun hc => ?_) fun hc => ?_)
  · rw [numberDigit_eq] at hc
    rw [if_pos hc]
    exact .fail
  · rw [numberDigit_eq] at hc
    rw [if_neg hc]
    refine .byte h (.ite (fun hzero => ?_) fun hzero => ?_)
    · rw [if_pos hzero]
      exact .at h
    · rw [if_neg hzero]
      exact .skip h (by simpa using hc)

theorem fraction_scans {p : Nat} (h : p ≤ b.len) : Scans b (fraction b p) (scanFrac (rest b p)) := by
  refine .ite (fun hlt => ?_) fun hge => ?_
  · rw [rest_lt hlt, scanFrac]
    refine .byte hlt (.ite (fun hc => ?_) fun hc => ?_)
    · rw [if_pos hc]
      refine .ite (fun hend => ?_) fun hend => ?_
      · rw [rest_ge (by omega)]
        exact .fail
      · exact digits_scans (by omega)
    · rw [if_neg hc, ← rest_lt hlt]
      exact .at h
  · exact .stay h hge (g := scanFrac) rfl

theorem exponent_scans {p : Nat} (h : p ≤ b.len) : Scans b (exponent b p) (scanExp (rest b p)) := by
  refine .ite (fun hlt => ?_) fun hge => ?_
  · rw [rest_lt hlt, scanExp.eq_def]
    dsimp only
    refine .byte hlt (.ite (fun hc => ?_) fun hc => ?_)
    · rw [if_pos hc]
      refine .ite (fun hend => ?_) fun hend => ?_
      · rw [rest_ge (by omega)]
        exact .fail
      · have hnext : p + 1 < b.len := by omega
        rw [rest_lt hnext]
        refine .byte hnext ?_
        dsimp only
        by_cases hsign : b.ptr (p + 1) = 43 ∨ b.ptr (p + 1) = 45
        · rw [if_pos hsign, if_pos hsign]
          refine .ite (fun hend => ?_) fun hend => ?_
          · rw [rest_ge (p := p + 1 + 1) (by omega)]
            exact .fail
          · exact digits_scans (by omega)
        · rw [if_neg hsign, if_neg hsign, ← rest_lt hnext, if_neg hend]
          exact digits_scans hnext
    · rw [if_neg hc, ← rest_lt hlt]
      exact .at h
  · exact .stay h hge (g := scanExp) rfl

theorem follower_scans {p : Nat} (h : p ≤ b.len) :
    Scans b (follower b p) (scanFollow (rest b p)) := by
  refine .ite (fun hlt => ?_) fun hge => ?_
  · rw [rest_lt hlt, scanFollow]
    refine .byte hlt (.ite (fun hc => ?_) fun hc => ?_)
    · rw [if_neg (by simp [follow, space]; tauto)]
      exact .fail
    · rw [if_pos (by simp [follow, space]; tauto), ← rest_lt hlt]
      exact .at h
  · exact .stay h hge (g := scanFollow) rfl

theorem Scans.andThen {x y : Nat → M (Option Nat)} {p : Nat} {r : Option Bytes}
    {g : Bytes → Option Bytes} (hx : Scans b (x p) r)
    (hy : ∀ q, q ≤ b.len → r = some (rest b q) → Scans b (y q) (g (rest b q))) :
    Scans b (andThen x y p) (r.bind g) := by
  intro s₀
  refine (hx s₀).bind fun q => ?_
  cases q with
  | none =>
    rintro s ⟨hs, hr⟩
    rw [show r = none from hr]
    exact ⟨hs, rfl⟩
  | some q =>
    rintro s ⟨hs, hq, hr⟩
    rw [hr]
    exact hy q hq hr s₀ s hs

/-- Something is left behind a minus sign. -/
theorem scanMinus_ne_nil {l l' : Bytes} (hl : l ≠ []) (h : scanMinus l = some l') : l' ≠ [] := by
  cases l with
  | nil => exact absurd rfl hl
  | cons c l =>
    rw [scanMinus] at h
    split at h
    · split at h
      · cases h
      · next hne =>
        cases h
        exact hne
    · cases h
      exact List.cons_ne_nil _ _

theorem number_scans {p : Nat} (h : p < b.len) : Scans b (number b p) (scanNumber (rest b p)) := by
  refine (minus_scans h).andThen fun q hq hr => ?_
  have hne : rest b q ≠ [] := by
    refine scanMinus_ne_nil ?_ hr
    rw [rest_lt h]
    exact List.cons_ne_nil _ _
  have hlt : q < b.len := by
    by_contra hge
    exact hne (rest_ge (by omega))
  refine (integer_scans hlt).andThen fun q hq _ => ?_
  refine (fraction_scans hq).andThen fun q hq _ => ?_
  refine (exponent_scans hq).andThen fun q hq _ => ?_
  exact follower_scans hq

/-- A number takes the index on. -/
theorem number_advances {p q : Nat} (hp : p < b.len) (hq : q ≤ b.len)
    (h : scanNumber (rest b p) = some (rest b q)) : p < q := by
  obtain ⟨n, hn, -, hl⟩ := scanNumber_iff.1 h
  obtain ⟨c, t, rfl, -⟩ := hn.head
  have hlen := congrArg List.length hl
  rw [List.length_append, List.length_cons, length_rest, length_rest] at hlen
  omega

/-! ## The loop -/

/-- What has to hold of the rest of the text for the whole to consist of tokens. -/
def Wanted (s : Scan) (l : Bytes) : Prop := if s.string then Inside s.escaped l else JsonText.Lexemes l

/-- The state before a round: nothing is decided, and only the text was read. -/
structure Looking (b : Buffer) (s : Scan) : Prop where
  reads : ∀ p ∈ s.reads, p < b.len
  outside : s.string = false → s.escaped = false
  wanted : JsonText.Lexemes b.bytes ↔ Wanted s (rest b s.i)

/-- The check has ended and says whether the text consists of tokens. -/
structure Decided (b : Buffer) (r : Bool) (s : Scan) : Prop where
  reads : ∀ p ∈ s.reads, p < b.len
  result : r = true ↔ JsonText.Lexemes b.bytes

/-- A round from `s` ends the check, or goes on with less of the text left. -/
def Progress (b : Buffer) (s : Scan) (x : Option Bool × Scan) : Prop :=
  (∃ r s', x = (some r, s') ∧ Decided b r s') ∨
    ∃ s', x = (none, s') ∧ Looking b s' ∧ b.len - s'.i < b.len - s.i

variable {s : Scan}

theorem Progress.refuse {s' : Scan} (hreads : ∀ p ∈ s'.reads, p < b.len)
    (h : ¬ JsonText.Lexemes b.bytes) : Progress b s (some false, s') :=
  .inl ⟨false, s', rfl, hreads, by simp [h]⟩

/-- A byte of a string takes the index on by one. -/
theorem stringByte_progress {s₀ : Scan} (h : Looking b s₀) (hlt : s₀.i < b.len) (hs : Reading b s₀ s)
    (hstring : s₀.string = true) : Progress b s₀ (stringByte (b.ptr s₀.i) s) := by
  have hwanted := h.wanted
  rw [Wanted, if_pos hstring, rest_lt hlt] at hwanted
  have hnext : b.len - (s.i + 1) < b.len - s₀.i := by
    rw [hs.i]
    omega
  have hs' : s.string = true := by rw [hs.string, hstring]
  rw [stringByte, run_bind, run_get, run_ite, run_ite, run_ite, run_ite]
  dsimp only
  by_cases hlow : b.ptr s₀.i < 32
  · rw [if_pos hlow]
    exact .refuse hs.reads fun hl => inside_low hlow (hwanted.1 hl)
  rw [if_neg hlow]
  have hlow' := UInt8.not_lt.1 hlow
  by_cases hescaped : s.escaped = true
  · rw [if_pos hescaped]
    refine .inr ⟨_, rfl, ⟨hs.reads, fun _ => rfl, ?_⟩, hnext⟩
    rw [hwanted, ← hs.escaped, hescaped, inside_escaped hlow', Wanted, if_pos hs', hs.i]
    rfl
  rw [if_neg hescaped]
  have hplain : s₀.escaped = false := by
    rw [← hs.escaped]
    exact Bool.not_eq_true _ ▸ hescaped
  rw [hplain] at hwanted
  by_cases hsolidus : b.ptr s₀.i = 92
  · rw [if_pos hsolidus]
    refine .inr ⟨_, rfl, ⟨hs.reads, fun hno => ?_, ?_⟩, hnext⟩
    · exact absurd hno (by simp [hs'])
    · rw [hwanted, hsolidus, Wanted, if_pos hs', hs.i]
      exact inside_solidus
  rw [if_neg hsolidus]
  by_cases hquote : b.ptr s₀.i = 34
  · rw [if_pos hquote]
    refine .inr ⟨_, rfl, ⟨hs.reads, fun _ => ?_, ?_⟩, hnext⟩
    · exact hs.escaped.trans hplain
    · rw [hwanted, hquote, Wanted, if_neg Bool.false_ne_true, hs.i]
      exact inside_quote
  rw [if_neg hquote]
  refine .inr ⟨_, rfl, ⟨hs.reads, fun hno => ?_, ?_⟩, hnext⟩
  · exact absurd hno (by simp [hs'])
  · rw [hwanted, Wanted, if_pos hs', hs.i, hs.escaped, hplain]
    exact inside_plain hlow' hquote hsolidus

/-- The last branch of the loop is taken at a byte that is a token of its own. -/
theorem other_of_rest {c : UInt8} (hquote : c ≠ 34) (hlow : ¬ (c < 32 ∧ c ≠ 9 ∧ c ≠ 13 ∧ c ≠ 10))
    (hnumber : ¬ (c = 45 ∨ numberDigit c = true)) : JsonText.other c = true := by
  have hstart : numberStart c = false := by
    rw [numberStart, decide_eq_false_iff_not]
    exact hnumber
  have hspace : 32 ≤ c ∨ space c = true := by
    rw [space, decide_eq_true_eq, ← UInt8.not_lt]
    tauto
  simp [JsonText.other, hquote, hstart, hspace]

/-- A number takes the index to where it ends. -/
theorem number_progress {s₀ : Scan} (h : Looking b s₀) (hlt : s₀.i < b.len) (hs : Reading b s₀ s)
    (hstring : s₀.string = false)
    (hwanted : JsonText.Lexemes b.bytes ↔
      ∃ l, scanNumber (rest b s₀.i) = some l ∧ JsonText.Lexemes l) :
    Progress b s₀ ((do
      match ← number b s₀.i with
      | none => return some false
      | some p =>
        modify fun s => { s with i := p - 1 + 1 }
        return none : M (Option Bool)) s) := by
  have hscans := number_scans hlt s₀ s hs
  rw [run_bind]
  revert hscans
  rcases number b s₀.i s with ⟨_ | p, s'⟩
  · rintro ⟨hs', hr⟩
    refine .refuse hs'.reads fun hl => ?_
    obtain ⟨l, hl, -⟩ := hwanted.1 hl
    rw [hr] at hl
    cases hl
  · rintro ⟨hs', hp, hr⟩
    have hadvance := number_advances hlt hp hr
    have hindex : p - 1 + 1 = p := by omega
    refine .inr ⟨_, rfl, ⟨hs'.reads, fun _ => ?_, ?_⟩, ?_⟩
    · exact hs'.escaped.trans (h.outside hstring)
    · have hstring' : s'.string = false := hs'.string.trans hstring
      change _ ↔ if s'.string = true then _ else _
      rw [hstring', if_neg Bool.false_ne_true]
      rw [hindex, hwanted, hr]
      simp
    · change b.len - (p - 1 + 1) < b.len - s₀.i
      omega

theorem lexemeRound_progress (h : Looking b s) : Progress b s (lexemeRound b s) := by
  rw [lexemeRound, run_bind, run_get, run_ite]
  dsimp only
  have hwanted := h.wanted
  by_cases hend : s.i ≥ b.len
  · rw [if_pos hend]
    refine .inl ⟨_, s, rfl, h.reads, ?_⟩
    rw [hwanted, rest_ge hend, Wanted]
    cases s.string with
    | false => simpa using JsonText.Lexemes.nil
    | true => simpa using inside_nil s.escaped
  have hlt : s.i < b.len := not_le.1 hend
  have hs : Reading b s (byteAt b s.i s).2 :=
    ((byteAt_triple hlt) s ⟨rfl, rfl, rfl, h.reads⟩).2
  rw [if_neg hend, run_bind, run_ite, show (byteAt b s.i s).1 = b.ptr s.i from rfl]
  by_cases hstring : s.string = true
  · rw [if_pos hstring]
    exact stringByte_progress h hlt hs hstring
  rw [if_neg hstring]
  have hplain : s.string = false := Bool.not_eq_true _ ▸ hstring
  have hunescaped := h.outside hplain
  have hnext : b.len - ((byteAt b s.i s).2.i + 1) < b.len - s.i := by
    rw [hs.i]
    omega
  rw [Wanted, if_neg hstring, rest_lt hlt] at hwanted
  rw [run_ite, run_ite, run_ite]
  by_cases hquote : b.ptr s.i = 34
  · rw [if_pos hquote]
    refine .inr ⟨_, rfl, ⟨hs.reads, nofun, ?_⟩, hnext⟩
    rw [hwanted, hquote, lexemes_quote]
    change _ ↔ Inside s.escaped _
    rw [hunescaped]
    rfl
  rw [if_neg hquote]
  by_cases hlow : b.ptr s.i < 32 ∧ b.ptr s.i ≠ 9 ∧ b.ptr s.i ≠ 13 ∧ b.ptr s.i ≠ 10
  · rw [if_pos hlow]
    obtain ⟨hlow, htab, hcr, hlf⟩ := hlow
    refine .refuse hs.reads fun hl => lexemes_control hlow ?_ (hwanted.1 hl)
    have hspace : b.ptr s.i ≠ 32 := by
      intro h
      rw [h] at hlow
      exact absurd hlow (by simp)
    simp [space, htab, hcr, hlf, hspace]
  rw [if_neg hlow]
  by_cases hnumber : b.ptr s.i = 45 ∨ numberDigit (b.ptr s.i) = true
  · rw [if_pos hnumber]
    have hstart : numberStart (b.ptr s.i) = true := by
      rw [numberStart, decide_eq_true_eq]
      exact hnumber
    rw [lexemes_number hstart, ← rest_lt hlt] at hwanted
    exact number_progress h hlt hs hplain hwanted
  rw [if_neg hnumber]
  have hother := other_of_rest hquote hlow hnumber
  refine .inr ⟨_, rfl, ⟨hs.reads, fun _ => hunescaped, ?_⟩, hnext⟩
  rw [hwanted, lexemes_other hother]
  change _ ↔ if s.string = true then _ else _
  rw [if_neg hstring]
  rfl

/-- **The lexeme check decides whether a text consists of tokens.** It reads the text only and returns
after one round more than there are bytes. -/
theorem validLexemes_decides (b : Buffer) :
    ∃ r s, validLexemes b (b.len + 1) = (some r, s) ∧ Decided b r s := by
  have hround : Round (Looking b) (fun s => b.len - s.i) (Decided b) (lexemeRound b) :=
    fun s hs => lexemeRound_progress hs
  refine hround.ends ?_ (Nat.lt_succ_of_le (Nat.sub_le _ _))
  exact ⟨nofun, fun _ => rfl, by rfl⟩

/-- The check accepts every JSON text, and of the other texts only those of which each string is
closed and holds no control character, and each number is one of the grammar and ends where it
should. -/
theorem valid_lexemes_filter (b : Buffer) :
    ∃ r s, validLexemes b (b.len + 1) = (some r, s) ∧ (∀ p ∈ s.reads, p < b.len) ∧
      (Text b.bytes → r = true) ∧ (r = true ↔ JsonText.Lexemes b.bytes) := by
  obtain ⟨r, s, hrun, hreads, hresult⟩ := validLexemes_decides b
  exact ⟨r, s, hrun, hreads, fun h => hresult.2 h.lexemes, hresult⟩

end EspCfTunnel.Lexemes
