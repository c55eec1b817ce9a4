import EspCfTunnel.Rpc.Messages

/-!
# What a registration says

`readRegistration` reads the RegisterConnection call the way the edge does: by the byte offsets and
pointer numbers of the schema, with the operations of `cf_capnp.h` and nothing of how the message was
built. On the frame that `cf_rpc_register` writes it returns the arguments of the call, and no operation
fails.
-/

namespace EspCfTunnel.Rpc

open EspCfTunnel Framing Capnp StateLogic

/-! ## Reading the call -/

/-- `TunnelAuth`. -/
structure TunnelAuth where
  accountTag : Bytes
  tunnelSecret : Bytes
  deriving DecidableEq, Repr

/-- `ClientInfo`; the features are absent if their pointer is null. -/
structure ClientInfo where
  clientId : Bytes
  features : Option (List Bytes)
  version : Bytes
  arch : Bytes
  deriving DecidableEq, Repr

/-- `ConnectionOptions`. -/
structure ConnectionOptions where
  replaceExisting : Nat
  compressionQuality : Nat
  previousAttempts : Nat
  client : ClientInfo
  localIp : Bytes
  deriving DecidableEq, Repr

/-- The parameters of RegisterConnection. -/
structure RegisterParams where
  connectionIndex : Nat
  auth : TunnelAuth
  tunnelId : Bytes
  options : ConnectionOptions
  deriving DecidableEq, Repr

/-- A RegisterConnection call as its receiver sees it. The target `which` is zero for an imported
capability. -/
structure Registration where
  kind : Nat
  question : Nat
  method : Nat
  interface : Nat
  which : Nat
  capability : Nat
  params : RegisterParams
  deriving DecidableEq, Repr

def readAuth (auth : Value) : StateM Reader TunnelAuth := do
  let accountTag ← readData (← cpField auth 0) true
  let tunnelSecret ← readData (← cpField auth 1) false
  return ⟨accountTag, tunnelSecret⟩

/-- The texts in a list, from number `i` on. -/
def readTexts (v : Value) : Nat → Nat → StateM Reader (List Bytes)
  | 0, _ => return []
  | n + 1, i => do
    let first ← readData (← cpAt v i) true
    let rest ← readTexts v n (i + 1)
    return first :: rest

/-- The list of features. -/
def readFeatures (v : Value) : StateM Reader (Option (List Bytes)) := do
  if v.kind = .null then return none
  return some (← readTexts v v.count 0)

def readClient (client : Value) : StateM Reader ClientInfo := do
  let clientId ← readData (← cpField client 0) false
  let features ← readFeatures (← cpField client 1)
  let version ← readData (← cpField client 2) true
  let arch ← readData (← cpField client 3) true
  return ⟨clientId, features, version, arch⟩

def readOptions (options : Value) : StateM Reader ConnectionOptions := do
  let replaceExisting ← cpUint options 0 1
  let compressionQuality ← cpUint options 1 1
  let previousAttempts ← cpUint options 2 1
  let client ← readClient (← cpField options 0)
  let localIp ← readData (← cpField options 1) false
  return ⟨replaceExisting, compressionQuality, previousAttempts, client, localIp⟩

def readParams (params : Value) : StateM Reader RegisterParams := do
  let connectionIndex ← cpUint params 0 1
  let auth ← readAuth (← cpField params 0)
  let tunnelId ← readData (← cpField params 1) false
  let options ← readOptions (← cpField params 2)
  return ⟨connectionIndex, auth, tunnelId, options⟩

/-- Read a RegisterConnection call by its schema. -/
def readRegistration : StateM Reader Registration := do
  let root ← cpRoot
  let kind ← cpUint root 0 2
  let call ← cpField root 0
  let question ← cpUint call 0 4
  let method ← cpUint call 4 2
  let interface ← cpUint call 8 8
  let target ← cpField call 0
  let which ← cpUint target 4 2
  let capability ← cpUint target 0 4
  let payload ← cpField call 1
  let params ← readParams (← cpField payload 0)
  return ⟨kind, question, method, interface, which, capability, params⟩

/-- The features that the options ask for; none asks for no list. -/
def featuresOf (features : Nat) : Option (List Bytes) :=
  if features = 0 then none
  else some ((if remoteConfig features then [text "allow_remote_config"] else []) ++
    if serializedHeaders features then [text "serialized_headers"] else [])

/-- The parameters that `cf_rpc_register` is to send. -/
def paramsOf (cred : Credentials) (opt : Options) : RegisterParams where
  connectionIndex := opt.connectionIndex
  auth := ⟨cred.accountTag.read 0 32, cred.tunnelSecret.read 0 cred.tunnelSecretLen⟩
  tunnelId := cred.tunnelId.read 0 16
  options :=
    { replaceExisting := if opt.replaceExisting then 1 else 0
      compressionQuality := 0
      previousAttempts := opt.previousAttempts
      client := ⟨opt.connectorId.read 0 16, featuresOf opt.features, opt.version, opt.arch⟩
      localIp := opt.localIp }

/-- The call that `cf_rpc_register` is to send: method 0 of the registration interface, as question 1. -/
def registrationOf (r : Client) (cred : Credentials) (opt : Options) : Registration :=
  ⟨2, 1, 0, registrationInterface, 0, r.capability, paramsOf cred opt⟩

/-! ## Reading a node -/

/-- The value shows the node, at most `d` levels deep. -/
def Holds (A : Arena) (d : Nat) (v : Value) (node : Node) : Prop :=
  ∃ ys, Shows A 0 v node.tree ys ∧ v.depth ≤ d

section
variable {A : Arena} {B d dw : Nat} {v : Value} {fs : List Field} {cs : List Node} {c : Node}

/-- A number of a struct is read from the data that setting the fields leaves. -/
theorem Holds.uint (h : Holds A d v (.struct dw fs cs)) {f : Field} (hf : f.Fits dw) (hB : 20 ≤ B) :
    Triple (Reader.Sees A B) (cpUint v f.byte f.width) fun n r =>
      n = f.read (dataOf dw fs) ∧ r.Sees A (B - 20) := by
  obtain ⟨ys, hshow, -⟩ := h
  obtain ⟨hwidth, hbyte, -⟩ := hf
  rw [Node.tree, ← dataOf] at hshow
  refine (cpUint_sees hshow (by omega) f.byte hwidth).post fun n r hr => ⟨?_, hr.2.mono (by omega)⟩
  rw [hr.1, length_dataOf, if_neg (by omega)]
  rfl

/-- A number that is set and not overwritten. -/
theorem Holds.uint_set (pre post : List Field) {f : Field} (h : Holds A d v (.struct dw (pre ++ f :: post) cs))
    (hf : f.Fits dw) (hpost : ∀ g ∈ post, f.Apart g) (hvalue : f.value < 2 ^ (8 * f.width)) (hB : 20 ≤ B) :
    Triple (Reader.Sees A B) (cpUint v f.byte f.width) fun n r => n = f.value ∧ r.Sees A (B - 20) := by
  refine (h.uint hf hB).post fun n r hr => ⟨?_, hr.2⟩
  rw [hr.1, Field.read_dataOf hf hpost, Nat.mod_eq_of_lt hvalue]

/-- A number that is never set. -/
theorem Holds.uint_zero (h : Holds A d v (.struct dw fs cs)) {f : Field} (hf : f.Fits dw)
    (hfs : ∀ g ∈ fs, f.Apart g) (hB : 20 ≤ B) :
    Triple (Reader.Sees A B) (cpUint v f.byte f.width) fun n r => n = 0 ∧ r.Sees A (B - 20) := by
  refine (h.uint hf hB).post fun n r hr => ⟨?_, hr.2⟩
  rw [hr.1, dataOf, Field.read_setFields (by rw [List.length_replicate]; exact hf.2.1) hfs, Field.read,
    List.drop_replicate, List.take_replicate, Bytes.le_replicate_zero]

/-- The bytes of a blob. -/
theorem Holds.blob {isText : Bool} {value : Bytes} (h : Holds A d v (.blob isText value)) :
    Triple (Reader.Sees A B) (readData v isText) fun bs r => bs = value ∧ r.Sees A B := by
  obtain ⟨ys, hshow, -⟩ := h
  exact fetchBlob_sees hshow

theorem fee_blob {isText : Bool} {value : Bytes} (h : value.length ≤ 128) :
    (Node.blob isText value).fee ≤ 20 := by
  rw [Node.fee, length_stored]
  split <;> omega

theorem fee_struct (h : dw + cs.length ≤ 19) : (Node.struct dw fs cs).fee ≤ 20 := by
  rw [Node.fee]
  omega

theorem fee_featureNode (features : Nat) : (featureNode features).fee ≤ 20 := by
  unfold featureNode
  split
  · decide
  · cases remoteConfig features <;> cases serializedHeaders features <;> simp [Node.fee]

section
variable (hA : ∀ seg, A.words seg < 2 ^ 32)
include hA

/-- A pointer of a struct. -/
theorem Holds.field (h : Holds A d v (.struct dw fs cs)) {i : Nat} (hc : cs[i]? = some c)
    (hd : d + 1 ≤ depthMax) (hfee : c.fee ≤ 20) (hB : 20 ≤ B) :
    Triple (Reader.Sees A B) (cpField v i) fun u r => Holds A (d + 1) u c ∧ r.Sees A (B - 20) := by
  obtain ⟨ys, hshow, hv⟩ := h
  rw [Node.tree] at hshow
  have hc' := getElem?_treeAll hc
  have hpays := fee_eq (hshow.pointer hc')
  have hstep := cpField_sees hA hshow hc' (by omega) (show fee 0 (ys i) ≤ B by omega)
  refine hstep.post fun u r hr => ⟨?_, hr.2.mono (by omega)⟩
  obtain ⟨zs, hu, -, hdepth⟩ := hr.1
  exact ⟨zs, hu, by omega⟩

/-- An element of a list of pointers. -/
theorem Holds.elem (h : Holds A d v (.pointers cs)) {i : Nat} (hc : cs[i]? = some c)
    (hd : d + 1 ≤ depthMax) (hfee : c.fee ≤ 20) (hB : 20 ≤ B) :
    Triple (Reader.Sees A B) (cpAt v i) fun u r => Holds A (d + 1) u c ∧ r.Sees A (B - 20) := by
  obtain ⟨ys, hshow, hv⟩ := h
  rw [Node.tree] at hshow
  have hc' := getElem?_treeAll hc
  have hden : ∃ seg slot, Denotes A 0 seg slot c.tree (ys i) := by
    cases hshow with
    | pointers _ _ _ _ hkids => exact ⟨_, _, hkids i _ hc'⟩
  obtain ⟨seg, slot, hden⟩ := hden
  have hpays := fee_eq hden
  have hstep := cpAt_pointers_sees hA hshow hc' (by omega) (show fee 0 (ys i) ≤ B by omega)
  refine hstep.post fun u r hr => ⟨?_, hr.2.mono (by omega)⟩
  obtain ⟨zs, hu, -, hdepth⟩ := hr.1
  exact ⟨zs, hu, by omega⟩

/-- The texts of a list are read in order. -/
theorem Holds.texts {ts : List Bytes} (h : Holds A d v (.pointers (ts.map (.blob true))))
    (hd : d + 1 ≤ depthMax) (hts : ∀ t ∈ ts, t.length ≤ 128) (n : Nat) {i : Nat} (hi : i + n = ts.length)
    (hB : 20 * n ≤ B) :
    Triple (Reader.Sees A B) (readTexts v n i) fun xs r => xs = ts.drop i ∧ r.Sees A (B - 20 * n) := by
  induction n generalizing i B with
  | zero =>
    refine Triple.ret fun r hr => ⟨?_, hr⟩
    rw [List.drop_eq_nil_of_le (by omega)]
  | succ n ih =>
    have hlt : i < ts.length := by omega
    have hc : (ts.map (Node.blob true))[i]? = some (.blob true ts[i]) := by
      rw [List.getElem?_map, List.getElem?_eq_getElem hlt]
      rfl
    have hfee : (Node.blob true ts[i]).fee ≤ 20 := fee_blob (hts _ (List.getElem_mem hlt))
    refine Triple.bind (h.elem hA hc hd hfee (by omega)) fun u => Triple.of_fact fun hu => ?_
    refine Triple.bind_eq hu.blob (Triple.bind_eq (ih (B := B - 20) (by omega) (by omega)) ?_)
    refine Triple.ret fun r hr => ⟨?_, hr.mono (by omega)⟩
    rw [← List.drop_eq_getElem_cons hlt]

omit hA in
/-- The node of the features is a list of their texts. -/
theorem featureNode_eq (features : Nat) : featureNode features =
    match featuresOf features with
    | none => .null
    | some ts => .pointers (ts.map (.blob true)) := by
  unfold featureNode featuresOf
  by_cases h0 : features = 0
  · rw [if_pos h0, if_pos h0]
  · rw [if_neg h0, if_neg h0]
    cases remoteConfig features <;> cases serializedHeaders features <;> rfl

omit hA in
theorem featuresOf_small {features : Nat} {ts : List Bytes} (h : featuresOf features = some ts) :
    ts.length ≤ 2 ∧ ∀ t ∈ ts, t.length ≤ 128 := by
  unfold featuresOf at h
  split at h
  · cases h
  · cases h
    cases remoteConfig features <;> cases serializedHeaders features <;> decide

/-- The features are read as they were asked for. -/
theorem Holds.features {features : Nat} (h : Holds A d v (featureNode features)) (hd : d + 1 ≤ depthMax)
    (hB : 40 ≤ B) :
    Triple (Reader.Sees A B) (readFeatures v) fun xs r => xs = featuresOf features ∧ r.Sees A (B - 40) := by
  rw [featureNode_eq] at h
  unfold readFeatures
  cases hfeatures : featuresOf features with
  | none =>
    rw [hfeatures] at h
    obtain ⟨ys, hshow, -⟩ := h
    rw [if_pos (show v.kind = .null from hshow.kind_eq)]
    exact Triple.ret fun r hr => ⟨rfl, hr.mono (by omega)⟩
  | some ts =>
    rw [hfeatures] at h
    obtain ⟨hcount, hlengths⟩ := featuresOf_small hfeatures
    have hvalue : v.kind = .list ∧ v.count = ts.length := by
      obtain ⟨ys, hshow, -⟩ := h
      rw [Node.tree] at hshow
      have hkind := hshow.kind_eq
      cases hshow with
      | pointers _ _ hn => exact ⟨hkind, by rw [hn, length_treeAll, List.length_map]⟩
    have htexts := h.texts hA hd hlengths v.count (i := 0) (by omega) (show 20 * v.count ≤ B by omega)
    rw [if_neg (by rw [hvalue.1]; exact Kind.noConfusion)]
    exact Triple.bind_eq htexts (Triple.ret fun r hr => ⟨rfl, hr.mono (by omega)⟩)

end

end

/-! ## Reading the message -/

/-- The node of a register call. -/
def registrationNode (r : Client) (cred : Credentials) (opt : Options) : Node :=
  callNode r.capability 1 0 (registerNode cred opt)

section
variable {A : Arena} {B d : Nat} {v : Value} {r : Client} {cred : Credentials} {opt : Options}

/-- What is checked bounds the sizes of the blobs. -/
theorem registerArguments_sizes (h : registerArguments cred opt = true) :
    opt.version.length ≤ 63 ∧ opt.arch.length ≤ 63 ∧ opt.localIp.length ≤ 16 ∧
      cred.tunnelSecretLen ≤ 128 := by
  simp only [registerArguments, ascii, decide_eq_true_eq] at h
  omega

theorem words_registrationNode (h : registerArguments cred opt = true) :
    (registrationNode r cred opt).words ≤ 76 := by
  obtain ⟨hversion, harch, hip, hsecret⟩ := registerArguments_sizes h
  have hfeatures : (featureNode opt.features).words ≤ 8 := by
    unfold featureNode
    split
    · simp [Node.words]
    · cases remoteConfig opt.features <;> cases serializedHeaders opt.features <;>
        simp [Node.words, wordsAll, length_stored, text]
  simp only [registrationNode, callNode, messageNode, registerNode, Node.words, wordsAll, length_stored,
    List.length_cons, List.length_nil, Mem.length_read]
  simp only [if_true, Bool.false_eq_true, if_false]
  omega

/-- The blobs of memories that are read. -/
theorem fee_read {isText : Bool} {m : Mem} {n : Nat} (h : n ≤ 128) :
    (Node.blob isText (m.read 0 n)).fee ≤ 20 :=
  fee_blob (by rwa [Mem.length_read])

variable (hA : ∀ seg, A.words seg < 2 ^ 32)
include hA

theorem readAuth_sees {tag secret : Bytes} (htag : tag.length ≤ 128) (hsecret : secret.length ≤ 128)
    (h : Holds A d v (.struct 0 [] [.blob true tag, .blob false secret])) (hd : d + 1 ≤ depthMax)
    (hB : 40 ≤ B) :
    Triple (Reader.Sees A B) (readAuth v) fun auth g => auth = ⟨tag, secret⟩ ∧ g.Sees A (B - 40) := by
  refine Triple.bind (h.field hA rfl hd (fee_blob htag) (by omega)) fun u => Triple.of_fact fun hu => ?_
  refine Triple.bind_eq hu.blob ?_
  refine Triple.bind (h.field hA rfl hd (fee_blob hsecret) (by omega)) fun u => Triple.of_fact fun hu => ?_
  exact Triple.bind_eq hu.blob (Triple.ret fun g hg => ⟨rfl, hg.mono (by omega)⟩)

theorem readClient_sees {id version arch : Bytes} {features : Nat} (hid : id.length ≤ 128)
    (hversion : version.length ≤ 128) (harch : arch.length ≤ 128)
    (h : Holds A d v (.struct 0 [] [.blob false id, featureNode features, .blob true version, .blob true arch]))
    (hd : d + 2 ≤ depthMax) (hB : 120 ≤ B) :
    Triple (Reader.Sees A B) (readClient v) fun client g =>
      client = ⟨id, featuresOf features, version, arch⟩ ∧ g.Sees A (B - 120) := by
  have hd' : d + 1 ≤ depthMax := by omega
  refine Triple.bind (h.field hA rfl hd' (fee_blob hid) (by omega)) fun u => Triple.of_fact fun hu => ?_
  refine Triple.bind_eq hu.blob ?_
  refine Triple.bind (h.field hA rfl hd' (fee_featureNode _) (by omega)) fun u => Triple.of_fact fun hu => ?_
  refine Triple.bind_eq (hu.features hA hd (by omega)) ?_
  refine Triple.bind (h.field hA rfl hd' (fee_blob hversion) (by omega)) fun u => Triple.of_fact fun hu => ?_
  refine Triple.bind_eq hu.blob ?_
  refine Triple.bind (h.field hA rfl hd' (fee_blob harch) (by omega)) fun u => Triple.of_fact fun hu => ?_
  exact Triple.bind_eq hu.blob (Triple.ret fun g hg => ⟨rfl, hg.mono (by omega)⟩)

/-- The parameters of the call. -/
theorem readParams_sees (hargs : registerArguments cred opt = true) (hindex : opt.connectionIndex < 2 ^ 8)
    (hattempts : opt.previousAttempts < 2 ^ 8) (h : Holds A d v (registerNode cred opt))
    (hd : d + 4 ≤ depthMax) (hB : 360 ≤ B) :
    Triple (Reader.Sees A B) (readParams v) fun params g =>
      params = paramsOf cred opt ∧ g.Sees A (B - 360) := by
  obtain ⟨hversion, harch, hip, hsecret⟩ := registerArguments_sizes hargs
  have hd₁ : d + 1 ≤ depthMax := by omega
  have hd₂ : d + 1 + 1 ≤ depthMax := by omega
  refine Triple.bind_eq (h.uint_set [] [] (f := ⟨0, 1, opt.connectionIndex⟩) (by simp [Field.Fits])
    (by simp) hindex (by omega)) ?_
  refine Triple.bind (h.field hA rfl hd₁ (fee_struct (by simp)) (by omega)) fun auth =>
    Triple.of_fact fun hauth => ?_
  refine Triple.bind_eq (readAuth_sees hA (by simp) (by rwa [Mem.length_read]) hauth hd₂ (by omega)) ?_
  refine Triple.bind (h.field hA rfl hd₁ (fee_read (by simp)) (by omega)) fun id =>
    Triple.of_fact fun hid => Triple.bind_eq hid.blob ?_
  refine Triple.bind (h.field hA rfl hd₁ (fee_struct (by simp)) (by omega)) fun options =>
    Triple.of_fact fun hoptions => ?_
  -- The options, with the numbers at bytes 0 and 2; byte 1 stays zero.
  refine Triple.bind_eq (a := (paramsOf cred opt).options) (A := Reader.Sees A (B - 360)) ?_
    (Triple.ret fun g hg => ⟨rfl, hg⟩)
  refine Triple.bind_eq (hoptions.uint_set [] [_] (f := ⟨0, 1, if opt.replaceExisting then 1 else 0⟩)
    (by simp [Field.Fits]) (by simp [Field.Apart]) (by dsimp only; split <;> decide) (by omega)) ?_
  refine Triple.bind_eq (hoptions.uint_zero (f := ⟨1, 1, 0⟩) (by simp [Field.Fits]) (by simp [Field.Apart])
    (by omega)) ?_
  refine Triple.bind_eq (hoptions.uint_set [_] [] (f := ⟨2, 1, opt.previousAttempts⟩) (by simp [Field.Fits])
    (by simp) hattempts (by omega)) ?_
  refine Triple.bind (hoptions.field hA rfl hd₂ (fee_struct (by simp)) (by omega)) fun client =>
    Triple.of_fact fun hclient => ?_
  refine Triple.bind_eq (readClient_sees hA (by simp) (by omega) (by omega) hclient (by omega) (by omega)) ?_
  refine Triple.bind (hoptions.field hA rfl hd₂ (fee_blob (by omega)) (by omega)) fun ip =>
    Triple.of_fact fun hip => ?_
  exact Triple.bind_eq hip.blob (Triple.ret fun g hg => ⟨rfl, hg.mono (by omega)⟩)

/-- **Reading a register call** gives its arguments. -/
theorem readRegistration_sees {xs : List Extent} (hden : Denotes A 0 0 0 (registrationNode r cred opt).tree xs)
    (hargs : registerArguments cred opt = true) (hcapability : r.capability < 2 ^ 32)
    (hindex : opt.connectionIndex < 2 ^ 8) (hattempts : opt.previousAttempts < 2 ^ 8) :
    Triple (Reader.Sees A traversalWords) readRegistration fun reg g =>
      reg = registrationOf r cred opt ∧ g.error = .ok := by
  have hstart : Triple (Reader.Sees A traversalWords) cpRoot fun v g =>
      Holds A 1 v (registrationNode r cred opt) ∧ g.Sees A (traversalWords - 20) := by
    have hfee : fee 0 xs ≤ 20 := by
      rw [fee_eq hden]
      exact fee_struct (by simp)
    refine (follow_sees hA hden one_le_depthMax (hfee.trans (by decide))).post fun v g hg => ?_
    obtain ⟨⟨ys, hshow, -, hd⟩, hsees⟩ := hg
    exact ⟨⟨ys, hshow, hd⟩, hsees.mono (by omega)⟩
  refine Triple.bind hstart fun root => Triple.of_fact fun hroot => ?_
  refine Triple.bind_eq (hroot.uint_set [] [] (f := ⟨0, 2, 2⟩) (by simp [Field.Fits]) (by simp) (by simp)
    (by decide)) ?_
  refine Triple.bind (hroot.field hA rfl (by decide) (fee_struct (by simp)) (by decide)) fun call =>
    Triple.of_fact fun hcall => ?_
  refine Triple.bind_eq (hcall.uint_set [] [_, _] (f := ⟨0, 4, 1⟩) (by simp [Field.Fits]) (by simp [Field.Apart])
    (by simp) (by decide)) ?_
  refine Triple.bind_eq (hcall.uint_set [_] [_] (f := ⟨4, 2, 0⟩) (by simp [Field.Fits]) (by simp [Field.Apart])
    (by simp) (by decide)) ?_
  refine Triple.bind_eq (hcall.uint_set [_, _] [] (f := ⟨8, 8, registrationInterface⟩) (by simp [Field.Fits])
    (by simp) (by decide) (by decide)) ?_
  refine Triple.bind (hcall.field hA rfl (by decide) (fee_struct (by simp)) (by decide)) fun target =>
    Triple.of_fact fun htarget => ?_
  refine Triple.bind_eq (htarget.uint_zero (f := ⟨4, 2, 0⟩) (by simp [Field.Fits]) (by simp [Field.Apart])
    (by decide)) ?_
  refine Triple.bind_eq (htarget.uint_set [] [] (f := ⟨0, 4, r.capability⟩) (by simp [Field.Fits]) (by simp)
    hcapability (by decide)) ?_
  refine Triple.bind (hcall.field hA rfl (by decide) (fee_struct (by simp)) (by decide)) fun payload =>
    Triple.of_fact fun hpayload => ?_
  refine Triple.bind (hpayload.field hA rfl (by decide) (fee_struct (by simp)) (by decide)) fun params =>
    Triple.of_fact fun hparams => ?_
  refine Triple.bind_eq (readParams_sees hA hargs hindex hattempts hparams (by decide) (by decide)) ?_
  exact Triple.ret fun g hg => ⟨rfl, hg.error⟩

end

/-! ## Sending the message -/

/-- What `cf_rpc_register` checks. -/
def Registers (r : Client) (cred : Credentials) (opt : Options) (cap : Nat) : Prop :=
  txMax ≤ cap ∧ r.state = .ready ∧ r.haveCapability = true ∧ registerArguments cred opt = true

section
variable {r : Client} {cred : Credentials} {opt : Options} {cap : Nat}

/-- The message of a registration always fits. -/
theorem registration_built (h : registerArguments cred opt = true) (out : Mem) :
    ∃ n out', build out txMax (registerBody r.capability cred opt) = ((.ok, n), out') ∧ n ≤ txMax ∧
      Encodes (out'.read 0 n) (registrationNode r cred opt) := by
  have hwords := words_registrationNode (r := r) h
  have hbuilt := build_built (wellTyped_callNode r.capability 1 0 (wellTyped_registerNode cred opt))
    (registerBody_does r.capability cred opt) out (show 16 ≤ txMax by decide) (by decide)
  rw [← registrationNode] at hbuilt
  generalize build out txMax (registerBody r.capability cred opt) = o at hbuilt
  cases hbuilt with
  | @frame out' _ henc => exact ⟨_, out', rfl, by simp only [txMax]; omega, henc⟩
  | nothing hbig => exact absurd hbig (by simp only [txMax]; omega)

/-- The frame of a registration is read back. -/
theorem readRegistration_frame (hargs : registerArguments cred opt = true) (hcapability : r.capability < 2 ^ 32)
    (hindex : opt.connectionIndex < 2 ^ 8) (hattempts : opt.previousAttempts < 2 ^ 8) {frame : Bytes}
    (h : Encodes frame (registrationNode r cred opt)) :
    ∃ g g', cpReadInit frame = .ok g ∧ readRegistration g = (registrationOf r cred opt, g') ∧
      g'.error = .ok := by
  obtain ⟨g, xs, hinit, hden⟩ := h
  have hA : ∀ seg, g.arena.words seg < 2 ^ 32 := by
    intro seg
    have := segment_len_le hinit seg
    unfold messageMax at this
    simp only [Reader.arena]
    omega
  have hg : g.Sees g.arena traversalWords := by
    obtain ⟨-, rfl⟩ := cpReadInit_eq_ok hinit
    exact ⟨rfl, rfl, le_rfl, le_rfl⟩
  have hread := readRegistration_sees hA hden hargs hcapability hindex hattempts g hg
  obtain ⟨⟨reg, g'⟩, hrun⟩ : ∃ p, readRegistration g = p := ⟨_, rfl⟩
  rw [hrun] at hread
  obtain ⟨rfl, herror⟩ := hread
  exact ⟨g, g', hinit, hrun, herror⟩

/-- The register message is complete and faithful. If the checks pass, `cf_rpc_register` writes one frame
of at most 1024 bytes, and reading it by the schema gives every argument of the call, without an error. If
a check fails, the client is unchanged and nothing is written. The bounds on the numbers are those of
their C types. -/
theorem register_faithful (hcapability : r.capability < 2 ^ 32) (hindex : opt.connectionIndex < 2 ^ 8)
    (hattempts : opt.previousAttempts < 2 ^ 8) (out : Mem) :
    (Registers r cred opt cap →
      let call := rpcRegister r cred opt out cap
      call.result = .ok ∧ call.n ≤ txMax ∧ call.rpc = { r with state := .registering } ∧
        ∃ g g', cpReadInit (call.out.read 0 call.n) = .ok g ∧
          readRegistration g = (registrationOf r cred opt, g') ∧ g'.error = .ok) ∧
      (¬ Registers r cred opt cap →
        let call := rpcRegister r cred opt out cap
        call.result ≠ .ok ∧ call.rpc = r ∧ call.n = 0) := by
  constructor
  · rintro ⟨hroom, hstate, hhave, hargs⟩
    obtain ⟨n, out', hbuild, hn, henc⟩ := registration_built (r := r) hargs out
    have hcall : rpcRegister r cred opt out cap = ⟨{ r with state := .registering }, .ok, out', n⟩ := by
      rw [rpcRegister, if_neg (by omega), if_neg (by simp [hstate, hhave]), if_neg (by simp [hargs]), hbuild]
      rfl
    dsimp only
    rw [hcall]
    exact ⟨rfl, hn, rfl, readRegistration_frame hargs hcapability hindex hattempts henc⟩
  · intro hno
    dsimp only
    unfold rpcRegister
    split
    · exact ⟨by simp, rfl, rfl⟩
    split
    · exact ⟨by simp, rfl, rfl⟩
    split
    · exact ⟨by simp, rfl, rfl⟩
    next hroom hstate hargs =>
    rw [not_or, not_not, Bool.not_eq_true', Bool.not_eq_false] at hstate
    rw [Bool.not_eq_true', Bool.not_eq_false] at hargs
    exact absurd ⟨not_lt.1 hroom, hstate.1, hstate.2, hargs⟩ hno

end

/-- A client that has the capability 7. -/
def sampleClient : Client := { rpcInit with state := .ready, capability := 7, haveCapability := true }

/-- Credentials with the account tag of zeros and a secret of 36 bytes. -/
def sampleCredentials : Credentials :=
  ⟨Mem.write (fun _ => 0) 0 (List.replicate 32 48), fun i => UInt8.ofNat i, fun i => UInt8.ofNat i, 36⟩

/-- Options with both features. -/
def sampleOptions : Options :=
  ⟨fun i => UInt8.ofNat i, [192, 0, 2, 1], text "esp-cf-test", text "host-test", 2, 3, false, 3⟩

theorem register_faithful_sample :
    (rpcRegister sampleClient sampleCredentials sampleOptions (fun _ => 0) 1024).result = .ok ∧
      (paramsOf sampleCredentials sampleOptions).options.client.features =
        some [text "allow_remote_config", text "serialized_headers"] := by
  have hchecks : Registers sampleClient sampleCredentials sampleOptions 1024 :=
    ⟨by simp, rfl, rfl, by decide +kernel⟩
  exact ⟨((register_faithful (by decide) (by decide) (by decide) fun _ => 0).1 hchecks).1, by decide +kernel⟩

end EspCfTunnel.Rpc
