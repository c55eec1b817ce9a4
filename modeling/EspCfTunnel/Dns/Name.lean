import EspCfTunnel.Core

/-!
# Compressed names

`read_name` of `cf_dns.c`. The names it reads are those of `NameAt`: labels one after the other, ended
by an empty one or continued elsewhere by a pointer back. The loop keeps what it has read so far and
counts its pointers and labels (`readNameLoop`); `readName_iff` says that it reads exactly the names
of at most 253 characters through at most 16 pointers. The bound of 127 labels is then never the one
that fails: as many labels of one character already are 253 characters long.
-/

namespace EspCfTunnel.Dns

open EspCfTunnel

/-- `CF_DNS_NAME_MAX`. -/
abbrev nameMax : Nat := 253

/-- `lower`. -/
def lower (c : UInt8) : UInt8 := if 65 ≤ c ∧ c ≤ 90 then c + 32 else c

/-- `name_char`. -/
def nameChar (c : UInt8) : Bool := (97 ≤ c ∧ c ≤ 122) ∨ (48 ≤ c ∧ c ≤ 57) ∨ c = 45 ∨ c = 95

/-- The loop of `read_name`, for `fuel` rounds at most: the position, the characters in `out`,
`resume`, `hops` and `labels`. -/
def readNameLoop (packet : Bytes) :
    Nat → Nat → Bytes → Nat → Nat → Nat → Except Result (Bytes × Nat)
  | 0, _, _, _, _, _ => .error .limit
  | fuel + 1, pos, out, resume, hops, labels =>
    match packet[pos]? with
    | none => .error .truncated
    | some n =>
      if n &&& 0xc0 = 0xc0 then
        match packet[pos + 1]? with
        | none => .error .truncated
        | some low =>
          let target := (n &&& 0x3f).toNat * 256 + low.toNat
          if hops + 1 > 16 ∨ target ≥ pos + 2 - 2 then .error .format
          else
            readNameLoop packet fuel target out (if resume = 0 then pos + 2 else resume) (hops + 1)
              labels
      else if n > 63 then .error .format
      else if n = 0 then .ok (out, if resume ≠ 0 then resume else pos + 1)
      else if labels + 1 > 127 ∨ n.toNat > packet.length - (pos + 1) ∨
          out.length + n.toNat + (if out.length ≠ 0 then 1 else 0) > nameMax then .error .limit
      else
        let out := if out.length ≠ 0 then out ++ [46] else out
        let label := ((packet.drop (pos + 1)).take n.toNat).map lower
        if label.all nameChar then
          readNameLoop packet fuel (pos + 1 + n.toNat) (out ++ label) resume hops (labels + 1)
        else .error .format

/-- `read_name`: the name, and the offset behind it. A round takes a pointer or a label or is the
last, so 144 rounds are enough. -/
def readName (packet : Bytes) (offset : Nat) : Except Result (Bytes × Nat) :=
  readNameLoop packet 144 offset [] 0 0 0

/-! ## The grammar of names -/

/-- A label of a name, in lower case. -/
structure IsLabel (packet : Bytes) (pos : Nat) (label : Bytes) : Prop where
  length : packet[pos]? = some (UInt8.ofNat label.length)
  bounds : 1 ≤ label.length ∧ label.length ≤ 63
  chars : ∀ c ∈ label, nameChar c = true
  text : ((packet.drop (pos + 1)).take label.length).map lower = label

/-- The labels of the name at an offset, the pointers it takes and the offset behind it. -/
inductive NameAt (packet : Bytes) : Nat → Nat → List Bytes → Nat → Prop
  | root {pos : Nat} (h : packet[pos]? = some 0) : NameAt packet pos 0 [] (pos + 1)
  | label {pos hops stop : Nat} {label : Bytes} {labels : List Bytes} (h : IsLabel packet pos label)
      (rest : NameAt packet (pos + 1 + label.length) hops labels stop) :
      NameAt packet pos hops (label :: labels) stop
  | pointer {pos hops stop target : Nat} {high low : UInt8} {labels : List Bytes}
      (h : packet[pos]? = some high) (hl : packet[pos + 1]? = some low) (hh : 192 ≤ high.toNat)
      (ht : target = high.toNat % 64 * 256 + low.toNat) (back : target < pos)
      (rest : NameAt packet target hops labels stop) :
      NameAt packet pos (hops + 1) labels (pos + 2)

/-- The labels of a name with dots between them. -/
def dotted (labels : List Bytes) : Bytes := [46].intercalate labels

/-- A name within the limits of `read_name`. -/
def IsName (packet : Bytes) (pos : Nat) (name : Bytes) (stop : Nat) : Prop :=
  ∃ hops labels, NameAt packet pos hops labels stop ∧ hops ≤ 16 ∧ dotted labels = name ∧
    name.length ≤ nameMax

/-! ## The characters read so far -/

/-- What the loop makes of `out` and further labels. -/
def joinOnto (out : Bytes) : List Bytes → Bytes
  | [] => out
  | label :: labels => joinOnto ((if out.length ≠ 0 then out ++ [46] else out) ++ label) labels

/-- Behind some characters every label comes with its dot. -/
theorem joinOnto_eq {out : Bytes} (h : out ≠ []) (labels : List Bytes) :
    joinOnto out labels = out ++ labels.flatMap fun label => 46 :: label := by
  induction labels generalizing out with
  | nil => simp [joinOnto]
  | cons label labels ih =>
    have hlen : out.length ≠ 0 := by simpa using h
    rw [joinOnto, if_pos hlen, ih (by simp)]
    simp

/-- From the start, the labels are joined by dots. -/
theorem joinOnto_nil {labels : List Bytes} (h : ∀ label ∈ labels, label ≠ []) :
    joinOnto [] labels = dotted labels := by
  cases labels with
  | nil => rfl
  | cons label labels =>
    have hne : label ≠ [] := h label List.mem_cons_self
    change joinOnto label labels = _
    rw [joinOnto_eq hne]
    clear h hne
    unfold dotted
    induction labels generalizing label with
    | nil => simp
    | cons next labels ih =>
      rw [List.intercalate_cons_cons, ← ih next]
      simp

/-- The loop only adds characters. -/
theorem length_le_joinOnto (labels : List Bytes) (out : Bytes) :
    out.length ≤ (joinOnto out labels).length := by
  induction labels generalizing out with
  | nil => exact Nat.le_refl _
  | cons label labels ih =>
    refine Nat.le_trans ?_ (ih _)
    split <;> simp

/-- Behind some characters, each label adds a character and a dot at least. -/
theorem length_joinOnto {out : Bytes} (hout : out ≠ []) {labels : List Bytes}
    (h : ∀ label ∈ labels, label ≠ []) :
    out.length + 2 * labels.length ≤ (joinOnto out labels).length := by
  rw [joinOnto_eq hout]
  clear hout
  induction labels with
  | nil => simp
  | cons label labels ih =>
    have hne : label.length ≠ 0 := by simpa using h label List.mem_cons_self
    have := ih fun l hl => h l (List.mem_cons_of_mem _ hl)
    simp only [List.length_append, List.flatMap_cons, List.length_cons] at this ⊢
    omega

/-- A name within the limit has 127 labels at most. -/
theorem length_labels {labels : List Bytes} (h : ∀ label ∈ labels, label ≠ [])
    (hmax : (joinOnto [] labels).length ≤ nameMax) : labels.length ≤ 127 := by
  cases labels with
  | nil => simp
  | cons label labels =>
    have hne : label ≠ [] := h label List.mem_cons_self
    have hlen : label.length ≠ 0 := by simpa using hne
    have := length_joinOnto hne fun l hl => h l (List.mem_cons_of_mem _ hl)
    change (joinOnto label labels).length ≤ 253 at hmax
    rw [List.length_cons]
    omega

theorem NameAt.ne_nil {packet : Bytes} {pos hops stop : Nat} {labels : List Bytes}
    (h : NameAt packet pos hops labels stop) : ∀ label ∈ labels, label ≠ [] := by
  induction h with
  | root _ => nofun
  | label h _ ih =>
    refine List.forall_mem_cons.2 ⟨?_, ih⟩
    have := h.bounds.1
    rintro rfl
    cases this
  | pointer _ _ _ _ _ _ ih => exact ih

/-- A name takes a byte at least. -/
theorem NameAt.lt_stop {packet : Bytes} {pos hops stop : Nat} {labels : List Bytes}
    (h : NameAt packet pos hops labels stop) : pos < stop := by
  induction h with
  | root _ => omega
  | label _ _ ih => omega
  | pointer _ _ _ _ _ _ _ => omega

/-! ## The loop reads the grammar -/

/-- The two high bits of a byte. -/
theorem high_bits (n : UInt8) : (n &&& 0xc0 = 0xc0 ↔ 192 ≤ n.toNat) ∧
    (n &&& 0x3f).toNat = n.toNat % 64 := by
  revert n
  exact Bytes.forall_byte (by decide +kernel)

/-- The offset behind a name, once a pointer was taken or not. -/
def resumeAt (resume stop : Nat) : Nat := if resume ≠ 0 then resume else stop

/-- **A name that is read** is one of the grammar. -/
theorem readNameLoop_ok {packet : Bytes} (fuel : Nat) {pos resume hops labels stop : Nat}
    {out name : Bytes} (hout : out.length ≤ nameMax) (hhops : hops ≤ 16)
    (h : readNameLoop packet fuel pos out resume hops labels = .ok (name, stop)) :
    ∃ more ls last, NameAt packet pos more ls last ∧ hops + more ≤ 16 ∧ joinOnto out ls = name ∧
      name.length ≤ nameMax ∧ stop = resumeAt resume last := by
  induction fuel generalizing pos out resume hops labels with
  | zero => cases h
  | succ fuel ih =>
    rw [readNameLoop] at h
    cases hn : packet[pos]? with
    | none => rw [hn] at h; cases h
    | some n =>
      rw [hn] at h
      dsimp only at h
      split at h
      · next hhigh =>
        cases hl : packet[pos + 1]? with
        | none => rw [hl] at h; cases h
        | some low =>
          rw [hl] at h
          dsimp only at h
          split at h
          · cases h
          next hno =>
          obtain ⟨more, ls, last, hname, hle, hjoin, hlen, hstop⟩ := ih hout (by omega) h
          refine ⟨more + 1, ls, pos + 2, ?_, by omega, hjoin, hlen, ?_⟩
          · refine .pointer hn hl ((high_bits n).1.1 hhigh) ?_ ?_ hname
            · rw [(high_bits n).2]
            · omega
          · rw [hstop]
            unfold resumeAt
            by_cases hr : resume = 0 <;> simp [hr]
      next hlow =>
      split at h
      · cases h
      next hsmall =>
      split at h
      · next hzero =>
        cases h
        exact ⟨0, [], pos + 1, .root (hzero ▸ hn), by omega, rfl, hout, rfl⟩
      next hpos =>
      by_cases hroom : labels + 1 > 127 ∨ n.toNat > packet.length - (pos + 1) ∨
          out.length + n.toNat + (if out.length ≠ 0 then 1 else 0) > nameMax
      · rw [if_pos hroom] at h
        cases h
      rw [if_neg hroom] at h
      obtain ⟨label, hlabel⟩ : ∃ label, label = ((packet.drop (pos + 1)).take n.toNat).map lower :=
        ⟨_, rfl⟩
      obtain ⟨next, hnext⟩ : ∃ next, next = (if out.length ≠ 0 then out ++ [46] else out) := ⟨_, rfl⟩
      rw [← hlabel, ← hnext] at h
      by_cases hchars : label.all nameChar = true
      · rw [if_pos hchars] at h
        have hn63 : n.toNat ≤ 63 := by simpa [UInt8.lt_iff_toNat_lt] using hsmall
        have hn0 : n.toNat ≠ 0 := fun h0 => hpos (UInt8.toNat_inj.1 h0)
        have hlen : label.length = n.toNat := by
          rw [hlabel, List.length_map, List.length_take, List.length_drop]
          omega
        have hfit : (next ++ label).length ≤ nameMax := by
          rw [List.length_append, hlen, hnext]
          split
          · next hne =>
            rw [if_pos hne] at hroom
            rw [List.length_append, List.length_singleton]
            omega
          · omega
        obtain ⟨more, ls, last, hname, hle, hjoin, hmax, hstop⟩ := ih hfit hhops h
        refine ⟨more, label :: ls, last, .label ⟨?_, ?_, ?_, ?_⟩ ?_, hle, ?_, hmax, hstop⟩
        · rw [hn, hlen, UInt8.ofNat_toNat]
        · omega
        · exact List.all_eq_true.1 hchars
        · rw [hlen, hlabel]
        · rwa [hlen]
        · rw [joinOnto, ← hnext, hjoin]
      · rw [if_neg hchars] at h
        cases h

/-- **A name of the grammar** is read, if it is within the limits. -/
theorem NameAt.readNameLoop {packet : Bytes} {pos more last : Nat} {ls : List Bytes}
    (h : NameAt packet pos more ls last) {fuel resume hops labels : Nat} {out : Bytes}
    (hfuel : more + ls.length < fuel) (hhops : hops + more ≤ 16) (hlabels : labels + ls.length ≤ 127)
    (hmax : (joinOnto out ls).length ≤ nameMax) :
    Dns.readNameLoop packet fuel pos out resume hops labels =
      .ok (joinOnto out ls, resumeAt resume last) := by
  induction h generalizing fuel resume hops labels out with
  | root h =>
    cases fuel with
    | zero => omega
    | succ fuel =>
      rw [Dns.readNameLoop, h]
      rfl
  | @label pos more last label ls h rest ih =>
    cases fuel with
    | zero => omega
    | succ fuel =>
      obtain ⟨hlow, hhigh⟩ := h.bounds
      have hnat : (UInt8.ofNat label.length).toNat = label.length :=
        UInt8.toNat_ofNat_of_lt' (by change label.length < 256; omega)
      have hchars : label.all nameChar = true := List.all_eq_true.2 h.chars
      have hinside : label.length ≤ packet.length - (pos + 1) := by
        have := congrArg List.length h.text
        rw [List.length_map, List.length_take, List.length_drop] at this
        omega
      obtain ⟨next, hnext⟩ : ∃ next, next = (if out.length ≠ 0 then out ++ [46] else out) := ⟨_, rfl⟩
      rw [joinOnto, ← hnext] at hmax ⊢
      rw [List.length_cons] at hfuel hlabels
      have hadd := Nat.le_trans (length_le_joinOnto ls (next ++ label)) hmax
      have hfit : ¬ out.length + label.length + (if out.length ≠ 0 then 1 else 0) > nameMax := by
        rw [List.length_append, hnext] at hadd
        split
        · next hne =>
          rw [if_pos hne, List.length_append, List.length_singleton] at hadd
          omega
        · next he =>
          rw [if_neg he] at hadd
          omega
      rw [Dns.readNameLoop, h.length]
      dsimp only
      rw [if_neg, if_neg, if_neg, hnat, if_neg, h.text, if_pos hchars, ← hnext]
      · exact ih (by omega) hhops (by omega) hmax
      · rintro (h₁ | h₁ | h₁)
        · omega
        · omega
        · exact hfit h₁
      · intro h0
        have := congrArg UInt8.toNat h0
        rw [hnat] at this
        change label.length = 0 at this
        omega
      · rw [gt_iff_lt, UInt8.lt_iff_toNat_lt, hnat]
        change ¬ 63 < label.length
        omega
      · rw [(high_bits _).1, hnat]
        omega
  | @pointer pos more last target high low ls h hl hh ht back rest ih =>
    cases fuel with
    | zero => omega
    | succ fuel =>
      rw [Dns.readNameLoop, h]
      dsimp only
      rw [if_pos ((high_bits high).1.2 hh), hl]
      dsimp only
      rw [(high_bits high).2, ← ht, if_neg (by omega), ih (by omega) (by omega) hlabels hmax]
      congr 2
      unfold resumeAt
      by_cases hr : resume = 0 <;> simp [hr]

/-- **`read_name`** reads exactly the names within its limits. -/
theorem readName_iff {packet : Bytes} {pos stop : Nat} {name : Bytes} :
    readName packet pos = .ok (name, stop) ↔ IsName packet pos name stop := by
  constructor
  · intro h
    obtain ⟨hops, labels, last, hname, hhops, hjoin, hmax, hstop⟩ :=
      readNameLoop_ok 144 (Nat.zero_le _) (Nat.zero_le _) h
    have heq : stop = last := hstop
    refine ⟨hops, labels, heq ▸ hname, by omega, ?_, hmax⟩
    rw [← joinOnto_nil hname.ne_nil, hjoin]
  · rintro ⟨hops, labels, hname, hhops, rfl, hmax⟩
    rw [← joinOnto_nil hname.ne_nil] at hmax ⊢
    have hlabels := length_labels hname.ne_nil hmax
    exact hname.readNameLoop (by omega) (by omega) (by omega) hmax

/-- `read_name` never fails with `CF_OK`. -/
theorem readName_error (packet : Bytes) (pos : Nat) : readName packet pos ≠ .error .ok := by
  have hloop : ∀ fuel pos out resume hops labels,
      readNameLoop packet fuel pos out resume hops labels ≠ .error .ok := by
    intro fuel
    induction fuel with
    | zero => nofun
    | succ fuel ih =>
      intro pos out resume hops labels h
      rw [readNameLoop] at h
      grind
  exact hloop _ _ _ _ _ _

/-- A name takes a byte at least. -/
theorem IsName.lt_stop {packet : Bytes} {pos stop : Nat} {name : Bytes}
    (h : IsName packet pos name stop) : pos < stop := by
  obtain ⟨_, _, hname, -⟩ := h
  exact hname.lt_stop

theorem IsName.length_le {packet : Bytes} {pos stop : Nat} {name : Bytes}
    (h : IsName packet pos name stop) : name.length ≤ nameMax := by
  obtain ⟨_, _, -, -, -, hmax⟩ := h
  exact hmax

end EspCfTunnel.Dns
