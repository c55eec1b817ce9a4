import EspCfTunnel.Capnp.Builder
import EspCfTunnel.Capnp.Tree
import Mathlib.Tactic.Ring
import Mathlib.Data.Nat.Bitwise

/-!
# Building a tree

A `Node` is what a caller means to build: structs with the numbers set in them, lists of pointers,
blobs, and pointers left null. The calls that build it may come in any order in which a slot is
filled after it was allocated; `Building` are the states this reaches, with the calls still to be
made as a list of tasks of which any may come next.

The invariant (`Progress`) looks forward: whatever memory the buffer ends as, if it agrees with the
buffer now outside the words the pending tasks own, and has in it what the pending tasks are to put
there, then it denotes the tree. Running a task keeps that promise because a task changes only the
words it owns and words that were not allocated before.
-/

namespace EspCfTunnel.Capnp

open EspCfTunnel Framing StateLogic

/-- A call of `cf_cp_set_uint` on a struct. -/
structure Field where
  byte : Nat
  width : Nat
  value : Nat
  deriving DecidableEq, Repr

/-- What is to be built below a pointer. The fields of a struct are set in the order given. -/
inductive Node
  | null
  | struct (dataWords : Nat) (fields : List Field) (children : List Node)
  | pointers (children : List Node)
  | blob (text : Bool) (value : Bytes)

/-- The data of a struct after setting fields in it. -/
def setFields (data : Bytes) (fields : List Field) : Bytes :=
  fields.foldl (fun d f => (Mem.ofBytes d |>.write f.byte (Bytes.leBytes f.width f.value)).read 0
    d.length) data

theorem setFields_cons (data : Bytes) (f : Field) (fs : List Field) :
    setFields data (f :: fs) =
      setFields (((Mem.ofBytes data).write f.byte (Bytes.leBytes f.width f.value)).read 0
        data.length) fs := rfl

/-- The bytes of a blob as they are stored: a text has a zero byte added. -/
def stored (text : Bool) (value : Bytes) : Bytes := if text then value ++ [0] else value

/-- The field fits into `n` data words, and its arguments into their types. -/
def Field.Fits (n : Nat) (f : Field) : Prop :=
  (f.width = 1 ∨ f.width = 2 ∨ f.width = 4 ∨ f.width = 8) ∧ f.byte + f.width ≤ n * 8 ∧
    f.byte < 2 ^ 16

mutual

/-- The words the objects of a node take. -/
def Node.words : Node → Nat
  | .null => 0
  | .struct dw _ cs => dw + cs.length + wordsAll cs
  | .pointers cs => cs.length + wordsAll cs
  | .blob text value => ((stored text value).length + 7) / 8

def wordsAll : List Node → Nat
  | [] => 0
  | c :: cs => c.words + wordsAll cs

end

mutual

/-- The arguments of the calls are in the range of their types, and fields are in their struct. -/
def Node.WellTyped : Node → Prop
  | .null => True
  | .struct dw fs cs => dw < 2 ^ 16 ∧ cs.length < 2 ^ 16 ∧ (∀ f ∈ fs, f.Fits dw) ∧ wellTypedAll cs
  | .pointers cs => cs.length < 2 ^ 32 ∧ wellTypedAll cs
  | .blob _ _ => True

def wellTypedAll : List Node → Prop
  | [] => True
  | c :: cs => c.WellTyped ∧ wellTypedAll cs

end

mutual

/-- The abstract value a node stands for. -/
def Node.tree : Node → Tree
  | .null => .null
  | .struct dw fs cs => .struct (setFields (List.replicate (dw * 8) 0) fs) (treeAll cs)
  | .pointers cs => .pointers (treeAll cs)
  | .blob text value => .list 2 ((stored text value).map fun b => b.toNat)

def treeAll : List Node → List Tree
  | [] => []
  | c :: cs => c.tree :: treeAll cs

end

theorem length_treeAll (cs : List Node) : (treeAll cs).length = cs.length := by
  induction cs with
  | nil => rfl
  | cons c cs ih => rw [treeAll, List.length_cons, List.length_cons, ih]

/-! ## Calls in any order -/

/-- A call still to be made: fill a slot, or set the remaining fields of a struct. -/
inductive Task
  | fill (slot : Nat) (node : Node)
  | fields (object dataWords : Nat) (fields : List Field)

/-- The slots from `base` on are to be filled with the nodes. -/
def fills : Nat → List Node → List Task
  | _, [] => []
  | base, c :: cs => .fill base c :: fills (base + 1) cs

/-- The builder call of a task, and the tasks that it opens. A slot that stays null takes no call. -/
def Task.run : Task → StateM Builder (List Task)
  | .fill _ .null => return []
  | .fill slot (.struct dw fs cs) => do
    let at_ ← cpStruct slot dw cs.length
    return .fields at_ dw fs :: fills (at_ + dw) cs
  | .fill slot (.pointers cs) => do
    let at_ ← cpPointerList slot cs.length
    return fills at_ cs
  | .fill slot (.blob text value) => do
    cpBlob slot value text
    return []
  | .fields _ _ [] => return []
  | .fields object dw (f :: fs) => do
    cpSetUint object f.byte f.width f.value
    return [.fields object dw fs]

/-- The builder states while `root` is built from `b₀`, with the tasks left: any of them is next. -/
inductive Building (root : Node) (b₀ : Builder) : List Task → Builder → Prop
  | start : Building root b₀ [.fill 0 root] b₀
  | step {xs ys : List Task} {t : Task} {b : Builder} : Building root b₀ (xs ++ t :: ys) b →
      Building root b₀ ((t.run b).1 ++ (xs ++ ys)) (t.run b).2

/-! ## What is pending -/

/-- The words a pending task may still write. -/
def Task.Owns : Task → Nat → Prop
  | .fill slot _, w => w = slot
  | .fields object dw _, w => object ≤ w ∧ w < object + dw

/-- The words a task and those it opens will allocate. -/
def Task.need : Task → Nat
  | .fill _ node => node.words
  | .fields .. => 0

def Task.WellTyped : Task → Prop
  | .fill _ node => node.WellTyped
  | .fields _ dw fs => ∀ f ∈ fs, f.Fits dw

/-- The memory a builder ends with holds what the task is to put there. -/
def Task.Holds (A : Arena) (b : Builder) : Task → Prop
  | .fill slot node => ∃ xs, Denotes A 0 0 slot node.tree xs
  | .fields object dw fs =>
    A.bytes 0 object dw = setFields (b.buffer.read (8 + object * 8) (dw * 8)) fs

/-- The slot of a pending task still holds the null pointer it was allocated as. -/
def Task.Fresh (b : Builder) : Task → Prop
  | .fill slot _ => b.buffer.read (8 + slot * 8) 8 = List.replicate 8 0
  | .fields .. => True

def Task.Disjoint (t u : Task) : Prop := ∀ w, t.Owns w → ¬ u.Owns w

/-- The segment `A` is a possible end of the builder: outside what is owned by the pending tasks it
is what the buffer is now, and it holds what they are to put there. -/
structure Ends (A : Arena) (tasks : List Task) (b : Builder) : Prop where
  count : 0 < A.count
  words : b.words ≤ A.words 0
  same : ∀ w, w < b.words → (∀ t ∈ tasks, ¬ t.Owns w) → ∀ i, i < 8 →
    A.mem 0 (w * 8 + i) = b.buffer (8 + w * 8 + i)
  holds : ∀ t ∈ tasks, t.Holds A b

/-- The state of a builder without an error while `root` is built. -/
structure Going (root : Node) (tasks : List Task) (b : Builder) : Prop where
  need : b.words + (tasks.map Task.need).sum = 1 + root.words
  owned : ∀ t ∈ tasks, ∀ w, t.Owns w → w < b.words
  disjoint : tasks.Pairwise Task.Disjoint
  wellTyped : ∀ t ∈ tasks, t.WellTyped
  fresh : ∀ t ∈ tasks, t.Fresh b
  ends : ∀ A, Ends A tasks b → ∃ xs, Denotes A 0 0 0 root.tree xs

theorem Task.Disjoint.symm {t u : Task} (h : t.Disjoint u) : u.Disjoint t :=
  fun w hu ht => h w ht hu

theorem Ends.perm {A : Arena} {xs ys : List Task} {b : Builder} (hp : xs.Perm ys)
    (h : Ends A xs b) : Ends A ys b :=
  ⟨h.count, h.words, fun w hw hn => h.same w hw fun t ht => hn t (hp.mem_iff.1 ht),
    fun t ht => h.holds t (hp.mem_iff.2 ht)⟩

/-- The order of the pending tasks does not matter. -/
theorem Going.perm {root : Node} {xs ys : List Task} {b : Builder} (hp : xs.Perm ys)
    (h : Going root xs b) : Going root ys b := by
  refine ⟨?_, fun t ht => h.owned t (hp.mem_iff.2 ht), ?_, fun t ht => h.wellTyped t (hp.mem_iff.2 ht),
    fun t ht => h.fresh t (hp.mem_iff.2 ht), fun A hA => h.ends A (hA.perm hp.symm)⟩
  · rw [← h.need, (hp.map Task.need).sum_nat]
  · exact hp.pairwise h.disjoint Task.Disjoint.symm

/-- A task that writes only what it owns and new words leaves the rest to the tasks after it. -/
theorem Going.advance {root : Node} {t : Task} {ns rest : List Task} {b b' : Builder}
    (h : Going root (t :: rest) b) (hgrow : b.words ≤ b'.words)
    (hframe : ∀ w, w < b.words → ¬ t.Owns w → ∀ i, i < 8 →
      b'.buffer (8 + w * 8 + i) = b.buffer (8 + w * 8 + i))
    (hneed : b'.words + (ns.map Task.need).sum = b.words + t.need)
    (hown : ∀ u ∈ ns, ∀ w, u.Owns w → w < b'.words ∧ (w < b.words → t.Owns w))
    (hdis : ns.Pairwise Task.Disjoint) (hwt : ∀ u ∈ ns, u.WellTyped) (hfresh : ∀ u ∈ ns, u.Fresh b')
    (hreal : ∀ A, Ends A (ns ++ rest) b' → t.Holds A b) : Going root (ns ++ rest) b' := by
  have hd := List.pairwise_cons.1 h.disjoint
  have hrest : ∀ u ∈ rest, ∀ w, u.Owns w → w < b.words :=
    fun u hu => h.owned u (List.mem_cons_of_mem _ hu)
  -- A range of words that a later task owns is as it was before this task.
  have hread : ∀ u ∈ rest, ∀ w n, (∀ k, w ≤ k → k < w + n → u.Owns k) →
      b'.buffer.read (8 + w * 8) (n * 8) = b.buffer.read (8 + w * 8) (n * 8) := by
    intro u hu w n hw
    refine Mem.read_congr fun i hlo hhi => ?_
    have huw := hw ((i - 8) / 8) (by omega) (by omega)
    have := hframe _ (hrest _ hu _ huw) (fun ht => hd.1 _ hu _ ht huw) (i % 8) (by omega)
    rwa [show 8 + (i - 8) / 8 * 8 + i % 8 = i by omega] at this
  refine ⟨?_, ?_, ?_, ?_, ?_, fun A hA => h.ends A ⟨hA.count, hgrow.trans hA.words, ?_, ?_⟩⟩
  · have := h.need
    rw [List.map_cons, List.sum_cons] at this
    rw [List.map_append, List.sum_append]
    omega
  · intro u hu w hw
    rcases List.mem_append.1 hu with hu | hu
    · exact (hown u hu w hw).1
    · exact (hrest u hu w hw).trans_le hgrow
  · refine List.pairwise_append.2 ⟨hdis, hd.2, fun u hu v hv w hw hv' => ?_⟩
    exact hd.1 v hv w ((hown u hu w hw).2 (hrest v hv w hv')) hv'
  · intro u hu
    rcases List.mem_append.1 hu with hu | hu
    · exact hwt u hu
    · exact h.wellTyped u (List.mem_cons_of_mem _ hu)
  · intro u hu
    rcases List.mem_append.1 hu with hu | hu
    · exact hfresh u hu
    have hold := h.fresh u (List.mem_cons_of_mem _ hu)
    cases u with
    | fill slot node =>
      have hsame := hread _ hu slot 1 fun k hlo hhi => by
        have : k = slot := by omega
        exact this
      exact hsame.trans hold
    | fields => trivial
  · intro w hw hn i hi
    have ht := hn t List.mem_cons_self
    rw [← hframe w hw ht i hi]
    refine hA.same w (hw.trans_le hgrow) (fun u hu huw => ?_) i hi
    rcases List.mem_append.1 hu with hu | hu
    · exact ht ((hown u hu w huw).2 hw)
    · exact hn u (List.mem_cons_of_mem _ hu) huw
  · intro u hu
    rcases List.mem_cons.1 hu with rfl | hu
    · exact hreal A hA
    have hold := hA.holds u (List.mem_append_right _ hu)
    cases u with
    | fill slot node => exact hold
    | fields object dw fs =>
      have hsame := hread _ hu object dw fun k hlo hhi => ⟨hlo, hhi⟩
      rw [Task.Holds, ← hsame]
      exact hold

/-! ## The slots of an object -/

theorem fills_owns {base w : Nat} {cs : List Node} {u : Task} (hu : u ∈ fills base cs)
    (hw : u.Owns w) : base ≤ w ∧ w < base + cs.length := by
  induction cs generalizing base with
  | nil => cases hu
  | cons c cs ih =>
    rw [List.length_cons]
    rcases List.mem_cons.1 hu with rfl | hu
    · have hw : w = base := hw
      omega
    · have := ih hu
      omega

theorem fills_pairwise (base : Nat) (cs : List Node) : (fills base cs).Pairwise Task.Disjoint := by
  induction cs generalizing base with
  | nil => exact List.Pairwise.nil
  | cons c cs ih =>
    refine List.pairwise_cons.2 ⟨fun u hu w hw hu' => ?_, ih _⟩
    have := fills_owns hu hu'
    have hw : w = base := hw
    omega

theorem fills_need (base : Nat) (cs : List Node) :
    ((fills base cs).map Task.need).sum = wordsAll cs := by
  induction cs generalizing base with
  | nil => rfl
  | cons c cs ih => rw [fills, List.map_cons, List.sum_cons, ih, wordsAll, Task.need]

theorem fills_wellTyped {cs : List Node} (h : wellTypedAll cs) (base : Nat) :
    ∀ u ∈ fills base cs, u.WellTyped := by
  induction cs generalizing base with
  | nil => intro u hu; cases hu
  | cons c cs ih =>
    rw [wellTypedAll] at h
    intro u hu
    rcases List.mem_cons.1 hu with rfl | hu
    · exact h.1
    · exact ih h.2 _ u hu

theorem fills_fresh {b : Builder} {base : Nat} {cs : List Node}
    (h : ∀ w, base ≤ w → w < base + cs.length → b.buffer.read (8 + w * 8) 8 = List.replicate 8 0) :
    ∀ u ∈ fills base cs, u.Fresh b := by
  intro u hu
  cases u with
  | fill slot node =>
    have := fills_owns hu (w := slot) rfl
    exact h slot this.1 this.2
  | fields => trivial

theorem fills_holds {A : Arena} {b : Builder} {base : Nat} {cs : List Node}
    (h : ∀ u ∈ fills base cs, u.Holds A b) :
    ∃ xs : Nat → List Extent, ∀ i t, (treeAll cs)[i]? = some t → Denotes A 0 0 (base + i) t (xs i) := by
  have hall : ∀ i, ∃ xs, ∀ t, (treeAll cs)[i]? = some t → Denotes A 0 0 (base + i) t xs := by
    intro i
    induction cs generalizing base i with
    | nil => exact ⟨[], fun t ht => by simp [treeAll] at ht⟩
    | cons c cs ih =>
      cases i with
      | zero =>
        obtain ⟨xs, hxs⟩ := h (.fill base c) List.mem_cons_self
        refine ⟨xs, fun t ht => ?_⟩
        rw [treeAll, List.getElem?_cons_zero, Option.some.injEq] at ht
        exact ht ▸ hxs
      | succ i =>
        obtain ⟨xs, hxs⟩ := ih (fun u hu => h u (List.mem_cons_of_mem _ hu)) i
        refine ⟨xs, fun t ht => ?_⟩
        rw [treeAll, List.getElem?_cons_succ] at ht
        rw [← Nat.add_assoc, Nat.add_right_comm]
        exact hxs t ht
  choose xs hxs using hall
  exact ⟨xs, hxs⟩

/-! ## Reading the end -/

section
variable {A : Arena} {tasks : List Task} {b : Builder} (h : Ends A tasks b)
include h

/-- Words that nothing owns any more are read at the end as they are now. -/
theorem Ends.read {w n : Nat} (hn : w + n ≤ b.words)
    (hfree : ∀ t ∈ tasks, ∀ u, w ≤ u → u < w + n → ¬ t.Owns u) {k : Nat} (hk : k ≤ n * 8) :
    (A.mem 0).read (w * 8) k = b.buffer.read (8 + w * 8) k := by
  rw [← Mem.read_shift b.buffer 8]
  refine Mem.read_congr fun i hlo hhi => ?_
  have := h.same (i / 8) (by omega) (fun t ht => hfree t ht _ (by omega) (by omega)) (i % 8) (by omega)
  rwa [show i / 8 * 8 + i % 8 = i by omega,
    show 8 + i / 8 * 8 + i % 8 = 8 + i by omega] at this

theorem Ends.word {slot value : Nat} (hslot : slot < b.words) (hfree : ∀ t ∈ tasks, ¬ t.Owns slot)
    (hread : b.buffer.read (8 + slot * 8) 8 = Bytes.leBytes 8 value) (hv : value < 2 ^ 64) :
    A.word 0 slot = value := by
  have hone : slot + 1 ≤ b.words := hslot
  rw [Arena.word, h.read hone (fun t ht u hlo hhi => by
    rw [show u = slot by omega]; exact hfree t ht) (k := 8) le_rfl, hread, Bytes.le_leBytes]
  exact Nat.mod_eq_of_lt hv

end

/-! ## One task at a time -/

section
variable {root : Node} {rest : List Task} {b : Builder} {slot : Nat}

/-- A new object behind a slot: its words are owned by the tasks it opens, and once these are done
the slot denotes the node. -/
theorem Going.object {node : Node} {ns : List Task} {n value : Nat} {b' : Builder}
    (h : Going root (.fill slot node :: rest) b)
    (hwords : b'.words = b.words + n)
    (hframe : ∀ w, w < b.words → w ≠ slot → ∀ i, i < 8 →
      b'.buffer (8 + w * 8 + i) = b.buffer (8 + w * 8 + i))
    (hslot : b'.buffer.read (8 + slot * 8) 8 = Bytes.leBytes 8 value) (hv : value < 2 ^ 64)
    (hneed : n + (ns.map Task.need).sum = node.words)
    (hown : ∀ u ∈ ns, ∀ w, u.Owns w → b.words ≤ w ∧ w < b.words + n)
    (hdis : ns.Pairwise Task.Disjoint) (hwt : ∀ u ∈ ns, u.WellTyped) (hfresh : ∀ u ∈ ns, u.Fresh b')
    (hreal : ∀ A, Ends A (ns ++ rest) b' → A.Inside 0 slot 1 → A.word 0 slot = value →
      A.Inside 0 b.words n → (∀ u ∈ ns, u.Holds A b') → ∃ xs, Denotes A 0 0 slot node.tree xs) :
    Going root (ns ++ rest) b' := by
  have hd := (List.pairwise_cons.1 h.disjoint).1
  have hlt : slot < b.words := h.owned _ List.mem_cons_self slot rfl
  refine h.advance (by omega) hframe ?_ ?_ hdis hwt hfresh ?_
  · rw [Task.need]
    omega
  · intro u hu w hw
    have := hown u hu w hw
    exact ⟨by omega, fun hlow => by omega⟩
  · intro A hA
    have hsize := hA.words
    have hfree : ∀ t ∈ ns ++ rest, ¬ t.Owns slot := by
      intro t ht hts
      rcases List.mem_append.1 ht with ht | ht
      · have := hown t ht slot hts
        omega
      · exact hd t ht slot rfl hts
    refine hreal A hA ⟨hA.count, by omega⟩ (hA.word (by omega) hfree hslot hv)
      ⟨hA.count, by omega⟩ fun u hu => hA.holds u (List.mem_append_left _ hu)

/-- The offset of a pointer word is read off its low half. -/
theorem pointerOffset_of_lt {p k : Nat} (hk : k < 2 ^ 29) (hp : p % 2 ^ 32 / 4 = k) :
    pointerOffset p = k := by
  rw [pointerOffset, hp]
  exact if_neg (by omega)

/-- The pointer to a struct that was just built denotes it, once its fields and children are set. -/
theorem denotes_struct {A : Arena} {at_ dw : Nat} {data : Bytes} {cs : List Node}
    (hslot : A.Inside 0 slot 1) (hlt : slot < at_) (hoff : at_ < 2 ^ 29) (hdw : dw < 2 ^ 16)
    (hpc : cs.length < 2 ^ 16) (hword : A.word 0 slot = structWord at_ slot dw cs.length)
    (hin : A.Inside 0 at_ (dw + cs.length)) (hdata : A.bytes 0 at_ dw = data)
    (hkids : ∃ xs : Nat → List Extent, ∀ i t, (treeAll cs)[i]? = some t →
      Denotes A 0 0 (at_ + dw + i) t (xs i)) :
    ∃ xs, Denotes A 0 0 slot (.struct data (treeAll cs)) xs := by
  obtain ⟨xs, hxs⟩ := hkids
  have hlen := length_treeAll cs
  by_cases hzero : dw = 0 ∧ cs.length = 0
  · obtain ⟨rfl, hcs⟩ := hzero
    obtain rfl := List.eq_nil_of_length_eq_zero hcs
    rw [List.length_nil, structWord_zero] at hword
    have hpt : Points A 0 0 slot ((2 ^ 30 - 1) * 4) 0 slot := by
      refine .near hslot hword (by simp) (by simp) ?_
      have : pointerOffset ((2 ^ 30 - 1) * 4) = -1 := by decide
      omega
    have hempty : data = A.bytes 0 slot 0 := hdata.symm
    have hnone : ∀ i t, ([] : List Tree)[i]? = some t → Denotes A 0 0 (slot + 0 + i) t (xs i) := by
      simp
    have hend : slot + (0 + ([] : List Tree).length) ≤ A.words 0 := (Nat.le_succ slot).trans hslot.2
    rw [hempty]
    exact ⟨_, .struct hpt (by decide) (by decide) (by decide) ⟨hslot.1, hend⟩ hnone⟩
  · rw [structWord_eq hlt (by omega) hdw hzero] at hword
    have hpt : Points A 0 0 slot ((at_ - slot - 1) * 4 + dw * 2 ^ 32 + cs.length * 2 ^ 48) 0 at_ := by
      refine .near hslot hword (by omega) (by omega) ?_
      rw [pointerOffset_of_lt (k := at_ - slot - 1) (by omega) (by omega)]
      omega
    rw [← hdata]
    exact ⟨_, .struct hpt (by omega) (by omega) (by omega) (by rw [hlen]; exact hin) hxs⟩

/-- A pointer word to a list behind its slot is resolved to it. -/
theorem points_list {A : Arena} {at_ size n : Nat} (hslot : A.Inside 0 slot 1) (hlt : slot < at_)
    (hoff : at_ < 2 ^ 29) (hsize : size < 8) (hword : A.word 0 slot = listWord at_ slot size n) :
    Points A 0 0 slot ((at_ - slot - 1) * 4 + 1 + size * 2 ^ 32 + n * 2 ^ 35) 0 at_ := by
  rw [listWord_eq hlt (by omega) hsize] at hword
  refine .near hslot hword (by omega) (by omega) ?_
  rw [pointerOffset_of_lt (k := at_ - slot - 1) (by omega) (by omega)]
  omega

theorem denotes_pointers {A : Arena} {at_ : Nat} {cs : List Node} (hslot : A.Inside 0 slot 1)
    (hlt : slot < at_) (hoff : at_ < 2 ^ 29)
    (hword : A.word 0 slot = listWord at_ slot 6 cs.length) (hin : A.Inside 0 at_ cs.length)
    (hkids : ∃ xs : Nat → List Extent, ∀ i t, (treeAll cs)[i]? = some t →
      Denotes A 0 0 (at_ + i) t (xs i)) :
    ∃ xs, Denotes A 0 0 slot (.pointers (treeAll cs)) xs := by
  obtain ⟨xs, hxs⟩ := hkids
  have hlen := length_treeAll cs
  have hpt := points_list hslot hlt hoff (by simp) hword
  exact ⟨_, .pointers hpt (by omega) (by omega) (by omega) (by rw [hlen]; exact hin) hxs⟩

theorem denotes_blob {A : Arena} {at_ : Nat} {bytes : Bytes} (hslot : A.Inside 0 slot 1)
    (hlt : slot < at_) (hoff : at_ < 2 ^ 29)
    (hword : A.word 0 slot = listWord at_ slot 2 bytes.length)
    (hin : A.Inside 0 at_ ((bytes.length + 7) / 8))
    (hread : (A.mem 0).read (at_ * 8) bytes.length = bytes) :
    ∃ xs, Denotes A 0 0 slot (.list 2 (bytes.map fun b => b.toNat)) xs := by
  have hpt := points_list hslot hlt hoff (by simp) hword
  have helem : (List.range bytes.length).map (A.element 0 at_ 2) = bytes.map fun b => b.toNat := by
    conv_rhs => rw [← hread]
    rw [Mem.read, List.map_map]
    refine List.map_congr_left fun i _ => ?_
    simp [Arena.element, elementBits, Mem.read]
  have hwords : (bytes.length * elementBits 2 + 63) / 64 = (bytes.length + 7) / 8 := by
    rw [show elementBits 2 = 8 from rfl]
    omega
  rw [← helem]
  exact ⟨_, .list hpt (by omega) (by omega) (by simp) (by omega) (hwords ▸ hin)⟩

/-- `cf_cp_struct` for a pending struct. -/
theorem Going.struct {dw : Nat} {fs : List Field} {cs : List Node}
    (h : Going root (.fill slot (.struct dw fs cs) :: rest) b)
    (hsmall : b.words + (dw + cs.length) < 2 ^ 29) :
    Going root ((.fields b.words dw fs :: fills (b.words + dw) cs) ++ rest)
      (b.extend (dw + cs.length) slot (structWord b.words slot dw cs.length)) := by
  obtain ⟨hdw, hpc, hfs, hcs⟩ : dw < 2 ^ 16 ∧ cs.length < 2 ^ 16 ∧ (∀ f ∈ fs, f.Fits dw) ∧
      wellTypedAll cs := by
    have := h.wellTyped _ List.mem_cons_self
    rwa [Task.WellTyped, Node.WellTyped] at this
  have hlt : slot < b.words := h.owned _ List.mem_cons_self slot rfl
  refine h.object rfl (fun w hw hne i hi => b.extend_of_lt hw hne hi) b.extend_slot ?_ ?_ ?_ ?_
    ?_ ?_ ?_
  · by_cases hzero : dw = 0 ∧ cs.length = 0
    · rw [hzero.1, hzero.2, structWord_zero]
      decide
    · rw [structWord_eq hlt (by omega) hdw hzero]
      omega
  · rw [List.map_cons, List.sum_cons, fills_need, Task.need, Node.words]
    omega
  · intro u hu w hw
    rcases List.mem_cons.1 hu with rfl | hu
    · have hw : b.words ≤ w ∧ w < b.words + dw := hw
      omega
    · have := fills_owns hu hw
      omega
  · refine List.pairwise_cons.2 ⟨fun u hu w hw hu' => ?_, fills_pairwise _ _⟩
    have := fills_owns hu hu'
    have hw : b.words ≤ w ∧ w < b.words + dw := hw
    omega
  · intro u hu
    rcases List.mem_cons.1 hu with rfl | hu
    · exact hfs
    · exact fills_wellTyped hcs _ u hu
  · intro u hu
    rcases List.mem_cons.1 hu with rfl | hu
    · trivial
    · exact fills_fresh (fun w hlo hhi => b.extend_new_word hlt (by omega) (by omega)) u hu
  · intro A hA hin hword hobj hholds
    have hdata := hholds _ List.mem_cons_self
    rw [Task.Holds] at hdata
    rw [Node.tree]
    refine denotes_struct hin hlt (by omega) hdw hpc hword hobj ?_
      (fills_holds fun u hu => hholds u (List.mem_cons_of_mem _ hu))
    rw [hdata, b.extend_new hlt (by omega)]

/-- `cf_cp_pointer_list` for a pending list. -/
theorem Going.pointers {cs : List Node} (h : Going root (.fill slot (.pointers cs) :: rest) b)
    (hsmall : b.words + cs.length < 2 ^ 29) :
    Going root (fills b.words cs ++ rest)
      (b.extend cs.length slot (listWord b.words slot 6 cs.length)) := by
  have hcs : wellTypedAll cs := by
    have := h.wellTyped _ List.mem_cons_self
    rw [Task.WellTyped, Node.WellTyped] at this
    exact this.2
  have hlt : slot < b.words := h.owned _ List.mem_cons_self slot rfl
  refine h.object rfl (fun w hw hne i hi => b.extend_of_lt hw hne hi) b.extend_slot ?_ ?_
    (fun u hu w hw => fills_owns hu hw) (fills_pairwise _ _) (fills_wellTyped hcs _)
    (fills_fresh fun w hlo hhi => b.extend_new_word hlt hlo hhi) ?_
  · rw [listWord_eq hlt (by omega) (by simp)]
    omega
  · rw [fills_need, Node.words]
  · intro A hA hin hword hobj hholds
    rw [Node.tree]
    exact denotes_pointers hin hlt (by omega) hword hobj (fills_holds hholds)

theorem stored_eq (text : Bool) (value : Bytes) :
    stored text value = value ++ List.replicate (if text then 1 else 0) 0 := by
  cases text <;> simp [stored]

theorem length_stored (text : Bool) (value : Bytes) :
    (stored text value).length = value.length + if text then 1 else 0 := by
  rw [stored_eq, List.length_append, List.length_replicate]

/-- The bytes of a blob written to zeroed memory, with the zero byte of a text behind them. -/
theorem read_stored {m : Mem} {base : Nat} {text : Bool} {value : Bytes}
    (hzero : m.read base (stored text value).length =
      List.replicate (stored text value).length 0) :
    (m.write base value).read base (stored text value).length = stored text value := by
  rw [stored_eq, List.length_append, List.length_replicate] at *
  rw [Mem.read_add, ← List.replicate_append_replicate] at hzero
  have hpad := (List.append_inj hzero (by simp)).2
  rw [Mem.read_add, Mem.read_write_same, Mem.read_write_disjoint _ _ (by omega), hpad]

/-- `cf_cp_blob` for a pending blob. -/
theorem Going.blob {text : Bool} {value : Bytes} {e : Builder}
    (h : Going root (.fill slot (.blob text value) :: rest) b)
    (hsmall : b.words + ((stored text value).length + 7) / 8 < 2 ^ 20)
    (he : e = b.extend (((stored text value).length + 7) / 8) slot
      (listWord b.words slot 2 (stored text value).length)) :
    Going root rest { e with buffer := e.buffer.write (8 + b.words * 8) value } := by
  have hlt : slot < b.words := h.owned _ List.mem_cons_self slot rfl
  have hzero : e.buffer.read (8 + b.words * 8) (stored text value).length =
      List.replicate (stored text value).length 0 := by
    rw [he]
    exact b.extend_new hlt (by omega)
  have hread := read_stored hzero
  have hslotWord : (e.buffer.write (8 + b.words * 8) value).read (8 + slot * 8) 8 =
      Bytes.leBytes 8 (listWord b.words slot 2 (stored text value).length) := by
    rw [Mem.read_write_disjoint _ _ (by omega), he]
    exact b.extend_slot
  have hv : listWord b.words slot 2 (stored text value).length < 2 ^ 64 := by
    rw [listWord_eq hlt (by omega) (by simp)]
    omega
  have hnone : ∀ {P : Task → Prop}, ∀ u ∈ ([] : List Task), P u := fun u hu => by cases hu
  refine h.object (by rw [he]; rfl) ?_ hslotWord hv (by rw [Node.words]; rfl) hnone
    List.Pairwise.nil hnone hnone ?_
  · intro w hw hne i hi
    dsimp only
    rw [Mem.write_of_lt _ _ (by omega), he]
    exact b.extend_of_lt hw hne hi
  · intro A hA hin hword hobj _
    rw [Node.tree]
    refine denotes_blob hin hlt (by omega) hword hobj ?_
    have hwords : e.words = b.words + ((stored text value).length + 7) / 8 := by rw [he]; rfl
    have hfree : ∀ t ∈ [] ++ rest, ∀ u, b.words ≤ u →
        u < b.words + ((stored text value).length + 7) / 8 → ¬ t.Owns u := by
      intro t ht u hlo _ hu
      have := h.owned t (List.mem_cons_of_mem _ ht) u hu
      omega
    rw [hA.read (by dsimp only; omega) hfree (by omega)]
    exact hread

/-- A slot that stays null takes no call. -/
theorem Going.null (h : Going root (.fill slot .null :: rest) b) : Going root rest b := by
  have hnone : ∀ {P : Task → Prop}, ∀ u ∈ ([] : List Task), P u := fun u hu => by cases hu
  have hd := (List.pairwise_cons.1 h.disjoint).1
  have hlt : slot < b.words := h.owned _ List.mem_cons_self slot rfl
  refine h.advance le_rfl (fun _ _ _ _ _ => rfl) (by rw [Task.need, Node.words]; rfl) hnone
    List.Pairwise.nil hnone hnone fun A hA => ?_
  have hzero : b.buffer.read (8 + slot * 8) 8 = Bytes.leBytes 8 0 :=
    h.fresh _ List.mem_cons_self
  rw [Task.Holds, Node.tree]
  exact ⟨_, .null ⟨hA.count, hlt.trans_le hA.words⟩
    (hA.word hlt (fun t ht hts => hd t ht slot rfl hts) hzero (by simp))⟩

variable {object dw : Nat}

/-- All fields of a struct have been set. -/
theorem Going.fields_nil (h : Going root (.fields object dw [] :: rest) b) : Going root rest b := by
  have hnone : ∀ {P : Task → Prop}, ∀ u ∈ ([] : List Task), P u := fun u hu => by cases hu
  have hd := (List.pairwise_cons.1 h.disjoint).1
  refine h.advance le_rfl (fun _ _ _ _ _ => rfl) rfl hnone List.Pairwise.nil hnone hnone
    fun A hA => ?_
  have hfree : ∀ t ∈ [] ++ rest, ∀ u, object ≤ u → u < object + dw → ¬ t.Owns u :=
    fun t ht u hlo hhi hu => hd t ht u ⟨hlo, hhi⟩ hu
  cases dw with
  | zero => rfl
  | succ dw =>
    have hend := h.owned _ List.mem_cons_self (object + dw) ⟨by omega, by omega⟩
    exact hA.read (by omega) hfree le_rfl

/-- A field is written inside its struct. -/
theorem Going.fields_cons {f : Field} {fs : List Field}
    (h : Going root (.fields object dw (f :: fs) :: rest) b) :
    Going root ([.fields object dw fs] ++ rest) { b with
      buffer := b.buffer.write (8 + (object * 8 + f.byte)) (Bytes.leBytes f.width f.value) } := by
  have hfit : ∀ g ∈ f :: fs, g.Fits dw := h.wellTyped _ List.mem_cons_self
  obtain ⟨-, hbyte, -⟩ := hfit f List.mem_cons_self
  refine h.advance le_rfl ?_ rfl ?_ (List.pairwise_singleton _ _) ?_ ?_ fun A hA => ?_
  · intro w hw hne i hi
    have hout : ¬ (object ≤ w ∧ w < object + dw) := hne
    exact Mem.write_of_not_mem _ _ (by rw [Bytes.length_leBytes]; omega)
  · intro u hu w hw
    rw [List.mem_singleton] at hu
    subst hu
    exact ⟨h.owned _ List.mem_cons_self w hw, fun _ => hw⟩
  · intro u hu
    rw [List.mem_singleton] at hu
    subst hu
    exact fun g hg => hfit g (List.mem_cons_of_mem _ hg)
  · intro u hu
    rw [List.mem_singleton] at hu
    subst hu
    trivial
  · have hold : A.bytes 0 object dw = _ := hA.holds _ (List.mem_append_left _ List.mem_cons_self)
    rw [Task.Holds, hold, ← Nat.add_assoc, Mem.read_write_within, setFields_cons, Mem.length_read]

end

/-! ## Any order of calls -/

/-- What holds of every state in which `root` is built in a buffer of `cap` bytes over `out`. -/
structure Progress (root : Node) (out : Mem) (cap : Nat) (tasks : List Task) (b : Builder) : Prop where
  capacity : b.capacity = cap
  outside : ∀ i, cap ≤ i → b.buffer i = out i
  header : ∀ i, i < 8 → b.buffer i = 0
  room : b.words ≤ (cap - 8) / 8
  failed : b.error ≠ .ok → (cap - 8) / 8 < 1 + root.words
  going : b.error = .ok → Going root tasks b

theorem cpBuildInit_eq {out : Mem} {cap : Nat} (hlo : 16 ≤ cap) (hhi : cap ≤ messageMax) :
    cpBuildInit out cap = (.ok, ⟨(out.write 0 (List.replicate 8 0)).write (8 + 0 * 8)
      (List.replicate (1 * 8) 0), cap, 0 + 1, .ok⟩) := by
  rw [cpBuildInit, if_neg (by omega)]
  dsimp only
  rw [allocWords_of_le rfl (by dsimp only; omega)]

/-- A new builder has the root's slot to fill. -/
theorem progress_start {root : Node} (hroot : root.WellTyped) {out : Mem} {cap : Nat}
    (hlo : 16 ≤ cap) (hhi : cap ≤ messageMax) :
    Progress root out cap [.fill 0 root] (cpBuildInit out cap).2 := by
  rw [cpBuildInit_eq hlo hhi]
  refine ⟨rfl, fun i hi => ?_, fun i hi => ?_, by dsimp only; omega, fun h => absurd rfl h, fun _ => ?_⟩
  · dsimp only
    rw [Mem.write_of_ge _ _ (by rw [List.length_replicate]; omega),
      Mem.write_of_ge _ _ (by rw [List.length_replicate]; omega)]
  · dsimp only
    rw [Mem.write_of_lt _ _ (by omega)]
    have hzero : out.write 0 (List.replicate 8 0) (0 + i) = _ :=
      out.write_inside (List.replicate 8 0) (by simpa using hi)
    rwa [Nat.zero_add, List.getElem_replicate] at hzero
  · refine ⟨by simp [Task.need], ?_, List.pairwise_singleton _ _, ?_, ?_, fun A hA => ?_⟩
    · intro t ht w hw
      rw [List.mem_singleton] at ht
      subst ht
      have hw : w = 0 := hw
      dsimp only
      omega
    · intro t ht
      rw [List.mem_singleton] at ht
      subst ht
      exact hroot
    · intro t ht
      rw [List.mem_singleton] at ht
      subst ht
      exact Mem.read_write_same _ _ (List.replicate 8 0)
    · exact hA.holds _ List.mem_cons_self

/-- After an error no call changes anything. -/
theorem Task.run_of_error (t : Task) {b : Builder} (h : b.error ≠ .ok) : (t.run b).2 = b := by
  cases t with
  | fill slot node =>
    cases node with
    | null => rfl
    | struct dw fs cs =>
      rw [Task.run, run_bind, cpStruct, run_bind, allocWords_of_error h, run_bind,
        setWord_of_error h]
      rfl
    | pointers cs =>
      rw [Task.run, run_bind, cpPointerList, run_bind, allocWords_of_error h, run_bind,
        setWord_of_error h]
      rfl
    | blob text value =>
      rw [Task.run, run_bind]
      unfold cpBlob
      rw [run_bind, run_get, if_pos h]
      rfl
  | fields object dw fs =>
    cases fs with
    | nil => rfl
    | cons f fs =>
      rw [Task.run, run_bind]
      unfold cpSetUint
      rw [run_bind, run_get, if_pos h]
      rfl

section
variable {root : Node} {out : Mem} {cap : Nat} {t : Task} {ns rest : List Task} {b : Builder}

/-- A call that finds no room proves that the whole does not fit. -/
theorem Progress.fail (h : Progress root out cap (t :: rest) b) (hok : b.error = .ok)
    (hbig : (cap - 8) / 8 - b.words < t.need) {rc : Result} (hrc : rc ≠ .ok) :
    Progress root out cap ns { b with error := rc } := by
  refine ⟨h.capacity, h.outside, h.header, h.room, fun _ => ?_, fun he => absurd he hrc⟩
  have hneed := (h.going hok).need
  rw [List.map_cons, List.sum_cons] at hneed
  omega

/-- A call that appends `n` words and writes nothing before them but a slot. -/
theorem Progress.extend (h : Progress root out cap (t :: rest) b) (hok : b.error = .ok)
    {n slot value : Nat} (hslot : slot < b.words) (hn : n ≤ (cap - 8) / 8 - b.words)
    {bytes : Bytes} (hbytes : bytes.length ≤ n * 8)
    (hgoing : Going root (ns ++ rest) { b.extend n slot value with
      buffer := (b.extend n slot value).buffer.write (8 + b.words * 8) bytes }) :
    Progress root out cap (ns ++ rest) { b.extend n slot value with
      buffer := (b.extend n slot value).buffer.write (8 + b.words * 8) bytes } := by
  have hroom := h.room
  refine ⟨h.capacity, fun i hi => ?_, fun i hi => ?_, ?_, fun he => absurd hok he, fun _ => hgoing⟩
  · dsimp only
    rw [Mem.write_of_ge _ _ (by omega), b.extend_outside hslot (by omega)]
    exact h.outside i hi
  · dsimp only
    rw [Mem.write_of_lt _ _ (by omega), b.extend_outside hslot (by omega)]
    exact h.header i hi
  · have hwords : (b.extend n slot value).words = b.words + n := rfl
    dsimp only
    omega

theorem Builder.write_nil_extend (b : Builder) (n slot value : Nat) :
    { b.extend n slot value with
      buffer := (b.extend n slot value).buffer.write (8 + b.words * 8) [] } =
      b.extend n slot value := by
  rw [Mem.write_nil]

/-- The fields a struct still has to get are inside the segment. -/
theorem Going.field_room {object dw : Nat} {f : Field} {fs : List Field}
    (h : Going root (.fields object dw (f :: fs) :: rest) b) :
    f.Fits dw ∧ object + dw ≤ b.words := by
  have hfit : ∀ g ∈ f :: fs, g.Fits dw := h.wellTyped _ List.mem_cons_self
  have hf := hfit f List.mem_cons_self
  have hbyte := hf.2.1
  have hwidth := hf.1
  have := h.owned _ List.mem_cons_self (object + dw - 1) ⟨by omega, by omega⟩
  exact ⟨hf, by omega⟩

/-- Running the first task keeps the invariant. -/
theorem Progress.run (hhi : cap ≤ messageMax) (h : Progress root out cap (t :: rest) b) :
    Progress root out cap ((t.run b).1 ++ rest) (t.run b).2 := by
  by_cases hok : b.error = .ok
  case neg =>
    rw [t.run_of_error hok]
    exact ⟨h.capacity, h.outside, h.header, h.room, h.failed, fun he => absurd he hok⟩
  have hg := h.going hok
  have hroom := h.room
  unfold messageMax at hhi
  cases t with
  | fill slot node =>
    have hlt : slot < b.words := hg.owned _ List.mem_cons_self slot rfl
    cases node with
    | null => exact ⟨h.capacity, h.outside, h.header, h.room, h.failed, fun _ => hg.null⟩
    | struct dw fs cs =>
      by_cases hn : dw + cs.length ≤ (b.capacity - 8) / 8 - b.words
      · rw [Task.run, run_bind, cpStruct_run hok hlt hn]
        rw [h.capacity] at hn
        have hgo := hg.struct (by omega)
        rw [← Builder.write_nil_extend] at hgo
        have := h.extend hok hlt hn (Nat.zero_le _) hgo
        rwa [Builder.write_nil_extend] at this
      · have hbig : (cap - 8) / 8 - b.words < (Task.fill slot (.struct dw fs cs)).need := by
          rw [Task.need, Node.words, ← h.capacity]
          omega
        rw [Task.run, run_bind, cpStruct, run_bind, allocWords_of_gt hok (by omega), run_bind,
          setWord_of_error Result.noConfusion]
        exact h.fail hok hbig Result.noConfusion
    | pointers cs =>
      by_cases hn : cs.length ≤ (b.capacity - 8) / 8 - b.words
      · rw [Task.run, run_bind, cpPointerList_run hok hlt hn]
        rw [h.capacity] at hn
        have hgo := hg.pointers (by omega)
        rw [← Builder.write_nil_extend] at hgo
        have := h.extend hok hlt hn (Nat.zero_le _) hgo
        rwa [Builder.write_nil_extend] at this
      · have hbig : (cap - 8) / 8 - b.words < (Task.fill slot (.pointers cs)).need := by
          rw [Task.need, Node.words, ← h.capacity]
          omega
        rw [Task.run, run_bind, cpPointerList, run_bind, allocWords_of_gt hok (by omega), run_bind,
          setWord_of_error Result.noConfusion]
        exact h.fail hok hbig Result.noConfusion
    | blob text value =>
      have hlen := length_stored text value
      rw [Task.run, run_bind]
      by_cases hlong : value.length > messageMax - 1
      · rw [cpBlob_of_long hok hlong]
        unfold messageMax at hlong
        refine h.fail hok ?_ Result.noConfusion
        rw [Task.need, Node.words]
        omega
      by_cases hn : ((stored text value).length + 7) / 8 ≤ (b.capacity - 8) / 8 - b.words
      · rw [cpBlob_run hok hlt (by omega) hlen.symm hn]
        rw [h.capacity] at hn
        exact h.extend hok hlt hn (by omega) (hg.blob (by omega) rfl)
      · rw [cpBlob_of_gt hok (by omega) hlen.symm (by omega)]
        refine h.fail hok ?_ Result.noConfusion
        rw [Task.need, Node.words, ← h.capacity]
        omega
  | fields object dw fs =>
    cases fs with
    | nil => exact ⟨h.capacity, h.outside, h.header, h.room, h.failed, fun _ => hg.fields_nil⟩
    | cons f fs =>
      obtain ⟨⟨hwidth, hbyte, -⟩, hend⟩ := hg.field_room
      have hrun : cpSetUint object f.byte f.width f.value b = ((), { b with
          buffer := b.buffer.write (8 + (object * 8 + f.byte))
            (Bytes.leBytes f.width f.value) }) := by
        unfold cpSetUint
        rw [run_bind, run_get, if_neg (by simp [hok]), if_neg (by dsimp only; omega)]
        rfl
      rw [Task.run, run_bind, hrun]
      refine ⟨h.capacity, fun i hi => ?_, fun i hi => ?_, h.room, h.failed, fun _ => hg.fields_cons⟩
      · rw [run_pure]
        dsimp only
        rw [Mem.write_of_ge _ _ (by rw [Bytes.length_leBytes]; omega)]
        exact h.outside i hi
      · rw [run_pure]
        dsimp only
        rw [Mem.write_of_lt _ _ (by omega)]
        exact h.header i hi

end

/-- The invariant holds in every state that any order of calls reaches. -/
theorem Building.progress {root : Node} (hroot : root.WellTyped) {out : Mem} {cap : Nat}
    (hlo : 16 ≤ cap) (hhi : cap ≤ messageMax) {tasks : List Task} {b : Builder}
    (h : Building root (cpBuildInit out cap).2 tasks b) : Progress root out cap tasks b := by
  induction h with
  | start => exact progress_start hroot hlo hhi
  | @step xs ys t b _ ih =>
    have hperm : (xs ++ t :: ys).Perm (t :: (xs ++ ys)) := List.perm_middle
    have hfirst : Progress root out cap (t :: (xs ++ ys)) b :=
      { ih with going := fun he => (ih.going he).perm hperm }
    exact hfirst.run hhi

/-! ## Programs that make the calls -/

section
variable {α β : Type}

/-- The program makes the calls of the first pending tasks, and leaves the tasks `Q`. -/
def Does (T : List Task) (x : StateM Builder α) (Q : α → List Task) : Prop :=
  ∀ root b₀ b, Building root b₀ T b → Building root b₀ (Q (x b).1) (x b).2

variable {T : List Task} {slot : Nat}

theorem Does.ret (a : α) : Does T (pure a) fun _ => T := fun _ _ _ h => h

theorem Does.bind {x : StateM Builder α} {f : α → StateM Builder β} {Q : α → List Task}
    {R : β → List Task} (hx : Does T x Q) (hf : ∀ a, Does (Q a) (f a) R) : Does T (x >>= f) R :=
  fun root b₀ b h => hf _ root b₀ _ (hx root b₀ b h)

theorem Does.struct (dw : Nat) (fs : List Field) (cs : List Node) :
    Does (.fill slot (.struct dw fs cs) :: T) (cpStruct slot dw cs.length) fun at_ =>
      .fields at_ dw fs :: (fills (at_ + dw) cs ++ T) :=
  fun root b₀ _ h => @Building.step root b₀ [] T _ _ h

theorem Does.pointers (cs : List Node) :
    Does (.fill slot (.pointers cs) :: T) (cpPointerList slot cs.length) fun at_ =>
      fills at_ cs ++ T :=
  fun root b₀ _ h => @Building.step root b₀ [] T _ _ h

theorem Does.blob (text : Bool) (value : Bytes) :
    Does (.fill slot (.blob text value) :: T) (cpBlob slot value text) fun _ => T :=
  fun root b₀ _ h => @Building.step root b₀ [] T _ _ h

theorem Does.set (object dw : Nat) (f : Field) (fs : List Field) :
    Does (.fields object dw (f :: fs) :: T) (cpSetUint object f.byte f.width f.value) fun _ =>
      .fields object dw fs :: T :=
  fun root b₀ _ h => @Building.step root b₀ [] T _ _ h

/-- Slots that stay null and structs that have all their fields need no call. -/
theorem Does.skip_null {x : StateM Builder α} {Q : α → List Task} (h : Does T x Q) :
    Does (.fill slot .null :: T) x Q :=
  fun root b₀ b hb => h root b₀ b (@Building.step root b₀ [] T _ _ hb)

theorem Does.skip_fields {x : StateM Builder α} {Q : α → List Task} {object dw : Nat}
    (h : Does T x Q) : Does (.fields object dw [] :: T) x Q :=
  fun root b₀ b hb => h root b₀ b (@Building.step root b₀ [] T _ _ hb)

end

end EspCfTunnel.Capnp
