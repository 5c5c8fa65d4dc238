import OpenSan.Web.FormData
import OpenSan.Web.Serialization

/-!
# The request of a page

`perform` of `san.lua`: the parameters of the page's form, the data that the page
brings back, and the handlers that the names of the submitted buttons call.  A handler
that ends does not end the request: the other buttons are looked at too, and at last
the unknown action is reported.
-/

namespace OpenSan.Web

open OpenSan.Foundation

abbrev Inputs := Table (List Char) (List Char)

/-- `address` is what `tostring` gives for an array. -/
def Param.tostring (address : List (List Char) → List Char) : Param → List Char
  | .text value => value
  | .array values => address values

def formvaluetable (order : Order) (address : List (List Char) → List Char) (params : Params)
    (group : List Char) : Inputs :=
  ((order.visit params.entries).filterMap fun entry =>
    if (group ++ ['.']).isPrefixOf entry.1 then
      some (entry.1.drop (group ++ ['.']).length, entry.2.tostring address)
    else none).foldl (fun vals pair => vals.insert pair.1 pair.2) ∅

def decodedInputs (order : Order) (inputs : Inputs) : Inputs :=
  ((order.visit inputs.entries).map fun entry => (urldecode entry.1 false, entry.2)).foldl
    (fun inputs pair => inputs.insert pair.1 pair.2) ∅

inductive Submit where
  | logicalAdd
  | logicalDelete
  | logicalHotspareAdd
  | logicalHotspareDelete
  | logicalPhysicalDetach
  | logicalFlashcacheBind
  | logicalFlashcacheUnbind
  | logicalGrow
  | logicalVolumeAdd
  | logicalVolumeRemove
  | logicalVolumeResize
  | logicalVolumeSnapshotAdd
  | logicalVolumeSnapshotResize
  | accessPatternNew
  | accessPatternDelete
  | accessPatternBind
  | accessPatternUnbind
  | accessPatternEdit
  | authCredentialAdd
  | authCredentialDelete
  deriving DecidableEq

def submitMap : List (Submit × String) :=
  [(.logicalAdd, "logical_add"),
   (.logicalDelete, "logical_delete"),
   (.logicalHotspareAdd, "logical_hotspare_add"),
   (.logicalHotspareDelete, "logical_hotspare_delete"),
   (.logicalPhysicalDetach, "logical_physical_detach"),
   (.logicalFlashcacheBind, "logical_flashcache_bind"),
   (.logicalFlashcacheUnbind, "logical_flashcache_unbind"),
   (.logicalGrow, "logical_grow"),
   (.logicalVolumeAdd, "logical_volume_add"),
   (.logicalVolumeRemove, "logical_volume_remove"),
   (.logicalVolumeResize, "logical_volume_resize"),
   (.logicalVolumeSnapshotAdd, "logical_volume_snapshot_add"),
   (.logicalVolumeSnapshotResize, "logical_volume_snapshot_resize"),
   (.accessPatternNew, "access_pattern_new"),
   (.accessPatternDelete, "access_pattern_delete"),
   (.accessPatternBind, "access_pattern_bind"),
   (.accessPatternUnbind, "access_pattern_unbind"),
   (.accessPatternEdit, "access_pattern_edit"),
   (.authCredentialAdd, "auth_credential_add"),
   (.authCredentialDelete, "auth_credential_delete")]

/-- `string.match( submit, "^submit_" .. submit_part )` -/
def calls (submit : List Char) (part : String) : Bool :=
  ("submit_".toList ++ part.toList).isPrefixOf submit

/-- The handlers the inputs call, in the order of the two loops. -/
def called (order : Order) (inputs : Inputs) : List Submit :=
  (order.visit inputs.keys).flatMap fun submit =>
    ((order.visit submitMap).filter fun entry => calls submit entry.2).map (·.1)

structure PageData where
  logicals : Option Value
  physicals : Option Value
  physicalVolumes : Option Value
  volumeGroups : Option Value
  logicalVolumes : Option Value

def restoredInput (inputs : Inputs) (name : String) : Except Error (Option Value) := do
  let text ← nonNil "data" (inputs.lookup name.toList)
  nonNil "loadstring" (restoreData (b64decode text))

def pageData (inputs : Inputs) : Except Error PageData := do
  let logicals ← restoredInput inputs "serialized_logicals"
  let physicals ← restoredInput inputs "serialized_physicals"
  let physicalVolumes ← restoredInput inputs "serialized_physical_volumes"
  let volumeGroups ← restoredInput inputs "serialized_volume_groups"
  let logicalVolumes ← restoredInput inputs "serialized_logical_volumes"
  .ok ⟨logicals, physicals, physicalVolumes, volumeGroups, logicalVolumes⟩

def unknownAction : String := "Unknown action specified"

def selection : Submit → Option String
  | .logicalAdd => some "san.physical_id"
  | .logicalGrow => some "san.grow_physical_id"
  | _ => none

/-- `get` is `luci.http.formvalue`. -/
def selected (get : List Char → Option Param) (submit : Submit) : Option Param :=
  (selection submit).bind fun name => get name.toList

section Requests

variable {σ : Type}

/-- A handler is given the inputs, the ticked disks if it asks for them, and the data.  Its
result is the state and the messages it redirects with; the client follows the first
redirect. -/
abbrev Handler (σ : Type) :=
  Submit → Inputs → Option Param → PageData → σ → Except Error (σ × List (Option String))

variable (handler : Handler σ)

def callHandlers (inputs : Inputs) (get : List Char → Option Param) (data : PageData)
    (submits : List Submit) (state : σ) : Except Error (σ × List (Option String)) :=
  submits.foldlM (fun (state, messages) submit => do
    let (state, more) ← handler submit inputs (selected get submit) data state
    .ok (state, messages ++ more)) (state, [])

def perform (order : Order) (address : List (List Char) → List Char) (params : Params)
    (state : σ) : Except Error (σ × List (Option String)) := do
  let inputs := decodedInputs order (formvaluetable order address params "san".toList)
  let data ← pageData inputs
  let (state, messages) ←
    callHandlers handler inputs params.lookup data (called order inputs) state
  .ok (state, messages ++ [some unknownAction])

theorem callHandlers_single (inputs : Inputs) (get : List Char → Option Param)
    (data : PageData) (submit : Submit) (state : σ) :
    callHandlers handler inputs get data [submit] state =
      handler submit inputs (selected get submit) data state := by
  unfold callHandlers
  rw [List.foldlM_cons]
  dsimp only
  cases handler submit inputs (selected get submit) data state with
  | error e => rfl
  | ok result => rfl

end Requests

/-! ## The inputs -/

section Tables

variable {order : Order} {address : List (List Char) → List Char}

theorem visit_keys_nodup {κ ν : Type} [DecidableEq κ] (table : Table κ ν) :
    ((order.visit table.entries).map (·.1)).Nodup :=
  ((order.perm table.entries).map _).nodup_iff.mpr table.keys_nodup

theorem mem_visit_entries (order : Order) {κ ν : Type} [DecidableEq κ] {table : Table κ ν} {key : κ}
    {value : ν} : (⟨key, value⟩ : Sigma fun _ : κ => ν) ∈ order.visit table.entries ↔
      table.lookup key = some value := by
  rw [Order.mem_visit, ← AList.mem_lookup_iff, Option.mem_def]

theorem lookup_formvaluetable (params : Params) (group key : List Char) :
    (formvaluetable order address params group).lookup key =
      (params.lookup (group ++ '.' :: key)).map (Param.tostring address) := by
  have hdot : ∀ name : List Char, (group ++ ['.']).isPrefixOf name = true ↔
      ∃ tail, name = group ++ '.' :: tail ∧ name.drop (group ++ ['.']).length = tail := by
    intro name
    rw [List.isPrefixOf_iff_prefix]
    constructor
    · rintro ⟨tail, rfl⟩
      exact ⟨tail, by simp, by rw [List.drop_left]⟩
    · rintro ⟨tail, rfl, -⟩
      exact ⟨tail, by simp⟩
  unfold formvaluetable
  set pairs := (order.visit params.entries).filterMap fun entry =>
    if (group ++ ['.']).isPrefixOf entry.1 then
      some (entry.1.drop (group ++ ['.']).length, entry.2.tostring address)
    else none with hpairs
  have hnodup : (pairs.map (·.1)).Nodup := by
    have hkeys : pairs.map (·.1) = ((order.visit params.entries).map (·.1)).filterMap fun name =>
        if (group ++ ['.']).isPrefixOf name then
          some (name.drop (group ++ ['.']).length) else none := by
      rw [hpairs, List.map_filterMap, List.filterMap_map]
      congr 1
      funext entry
      simp only [Function.comp_apply]
      split <;> rfl
    rw [hkeys]
    refine (visit_keys_nodup params).filterMap fun name name' tail hname hname' => ?_
    simp only [Option.mem_def, Option.ite_none_right_eq_some, Option.some.injEq] at hname hname'
    obtain ⟨t, ht, hdrop⟩ := (hdot name).mp hname.1
    obtain ⟨t', ht', hdrop'⟩ := (hdot name').mp hname'.1
    rw [ht, ht', ← hdrop, ← hdrop', hname.2, hname'.2]
  have hmem : ∀ value, (key, value) ∈ pairs ↔
      (params.lookup (group ++ '.' :: key)).map (Param.tostring address) = some value := by
    intro value
    rw [hpairs, List.mem_filterMap, Option.map_eq_some_iff]
    constructor
    · rintro ⟨⟨name, param⟩, hentry, hvalue⟩
      simp only [Option.ite_none_right_eq_some, Option.some.injEq, Prod.mk.injEq] at hvalue
      obtain ⟨tail, rfl, hdrop⟩ := (hdot name).mp hvalue.1
      obtain rfl : tail = key := hdrop.symm.trans hvalue.2.1
      exact ⟨param, (mem_visit_entries order).mp hentry, hvalue.2.2⟩
    · rintro ⟨param, hfound, rfl⟩
      refine ⟨⟨_, param⟩, (mem_visit_entries order).mpr hfound, ?_⟩
      have hname := (hdot (group ++ '.' :: key)).mpr ⟨key, rfl, by simp⟩
      simp [hname]
  ext value
  rw [lookup_foldl_insert_iff hnodup, hmem]

theorem urldecode_plain {name : List Char} (h : ∀ c ∈ name, c ≠ '%' ∧ c ≠ '+') :
    urldecode name false = name := by
  unfold urldecode
  induction name with
  | nil => rfl
  | cons c name ih =>
      simp only [List.forall_mem_cons] at h
      have hrest := ih h.2
      simp only [Bool.false_eq_true, if_false, List.map_cons] at hrest ⊢
      rw [plusToSpace, if_neg h.1.2, percentDecode_cons h.1.1, hrest]

theorem lookup_decodedInputs {inputs : Inputs}
    (h : ∀ key ∈ inputs.keys, urldecode key false = key) (key : List Char) :
    (decodedInputs order inputs).lookup key = inputs.lookup key := by
  have hpairs : ((order.visit inputs.entries).map fun entry =>
      (urldecode entry.1 false, entry.2)) =
      (order.visit inputs.entries).map fun entry => (entry.1, entry.2) := by
    refine List.map_congr_left fun entry hentry => ?_
    have hin : entry.1 ∈ inputs.keys :=
      List.mem_map.mpr ⟨entry, (Order.mem_visit order).mp hentry, rfl⟩
    rw [h entry.1 hin]
  unfold decodedInputs
  rw [hpairs]
  ext value
  rw [lookup_foldl_insert_iff]
  · rw [List.mem_map, ← mem_visit_entries order]
    constructor
    · rintro ⟨⟨name, other⟩, hentry, hsame⟩
      obtain ⟨rfl, rfl⟩ := Prod.mk.inj hsame
      exact hentry
    · exact fun hentry => ⟨_, hentry, rfl⟩
  · rw [List.map_map]
    exact visit_keys_nodup inputs

end Tables

/-! ## The button of a request -/

theorem submitMap_apart : ∀ first ∈ submitMap, ∀ second ∈ submitMap,
    first.2.toList.isPrefixOf second.2.toList = true → first = second := by
  decide

theorem eq_of_calls {submit : List Char} {first second : Submit × String}
    (hfirst : first ∈ submitMap) (hsecond : second ∈ submitMap)
    (hcalls : calls submit first.2 = true) (hcalls' : calls submit second.2 = true) :
    first = second := by
  rw [calls, List.isPrefixOf_iff_prefix] at hcalls hcalls'
  rcases List.prefix_or_prefix_of_prefix hcalls hcalls' with hle | hle
  · refine submitMap_apart first hfirst second hsecond ?_
    exact List.isPrefixOf_iff_prefix.mpr ((List.prefix_append_right_inj _).mp hle)
  · refine (submitMap_apart second hsecond first hfirst ?_).symm
    exact List.isPrefixOf_iff_prefix.mpr ((List.prefix_append_right_inj _).mp hle)

theorem submitMap_nodup : submitMap.Nodup := by decide

theorem flatMap_single {α β : Type} {items : List α} {item : α} {f : α → List β} {value : β}
    (hnodup : items.Nodup) (hin : item ∈ items) (hitem : f item = [value])
    (hother : ∀ other ∈ items, other ≠ item → f other = []) : items.flatMap f = [value] := by
  obtain ⟨before, after, rfl⟩ := List.append_of_mem hin
  have hsplit := List.nodup_append.mp hnodup
  have hbefore : before.flatMap f = [] := by
    refine List.flatMap_eq_nil_iff.mpr fun other hother' => hother other (by simp [hother']) ?_
    exact hsplit.2.2 other hother' item (by simp)
  have hafter : after.flatMap f = [] := by
    refine List.flatMap_eq_nil_iff.mpr fun other hother' => hother other (by simp [hother']) ?_
    rintro rfl
    exact (List.nodup_cons.mp hsplit.2.1).1 hother'
  rw [List.flatMap_append, List.flatMap_cons, hbefore, hafter, hitem]
  rfl

theorem filter_single {α : Type} {items : List α} {item : α} {p : α → Bool}
    (hnodup : items.Nodup) (hin : item ∈ items) (hitem : p item = true)
    (honly : ∀ other ∈ items, p other = true → other = item) : items.filter p = [item] := by
  have hperm : (items.filter p).Perm [item] := by
    rw [List.perm_ext_iff_of_nodup (hnodup.filter p) (by simp)]
    intro other
    rw [List.mem_filter, List.mem_singleton]
    constructor
    · exact fun h => honly other h.1 h.2
    · rintro rfl
      exact ⟨hin, hitem⟩
  exact List.perm_singleton.mp hperm

theorem called_eq {order : Order} {inputs : Inputs} {button : List Char} {submit : Submit}
    {part : String} (hpart : (submit, part) ∈ submitMap) (hbutton : button ∈ inputs.keys)
    (hcalls : calls button part = true)
    (honly : ∀ key ∈ inputs.keys, ∀ entry ∈ submitMap, calls key entry.2 = true →
      key = button) :
    called order inputs = [submit] := by
  refine flatMap_single ((order.perm _).nodup_iff.mpr inputs.keys_nodup)
    ((Order.mem_visit order).mpr hbutton) ?_ ?_
  · have hfilter : (order.visit submitMap).filter (fun entry => calls button entry.2) =
        [(submit, part)] := by
      refine filter_single ((order.perm _).nodup_iff.mpr submitMap_nodup)
        ((Order.mem_visit order).mpr hpart) hcalls fun entry hentry hother => ?_
      exact eq_of_calls ((Order.mem_visit order).mp hentry) hpart hother hcalls
    rw [hfilter]
    rfl
  · intro key hkey hne
    rw [List.map_eq_nil_iff, List.filter_eq_nil_iff]
    intro entry hentry hcall
    exact hne (honly key ((Order.mem_visit order).mp hkey) entry
      ((Order.mem_visit order).mp hentry) hcall)

/-! ## A page that is sent back -/

structure PageTables where
  physicals : Value
  logicals : Value
  physicalVolumes : Value
  volumeGroups : Value
  logicalVolumes : Value

structure SerializedTables where
  physicals : List Char
  logicals : List Char
  physicalVolumes : List Char
  volumeGroups : List Char
  logicalVolumes : List Char

def filterSerialize (tables : PageTables) : SerializedTables :=
  ⟨serializeData tables.physicals, serializeData tables.logicals,
    serializeData tables.physicalVolumes, serializeData tables.volumeGroups,
    serializeData tables.logicalVolumes⟩

def filterBase64encode (texts : SerializedTables) : SerializedTables :=
  ⟨b64encode texts.physicals, b64encode texts.logicals, b64encode texts.physicalVolumes,
    b64encode texts.volumeGroups, b64encode texts.logicalVolumes⟩

def serializedFields (texts : SerializedTables) : List (List Char × List Char) :=
  [("san.serialized_physicals".toList, texts.physicals),
   ("san.serialized_logicals".toList, texts.logicals),
   ("san.serialized_physical_volumes".toList, texts.physicalVolumes),
   ("san.serialized_volume_groups".toList, texts.volumeGroups),
   ("san.serialized_logical_volumes".toList, texts.logicalVolumes)]

def Sendable (value : Value) : Prop := Storable value ∧ ByteStrings value

structure PageTables.Sendable (tables : PageTables) : Prop where
  physicals : Web.Sendable tables.physicals
  logicals : Web.Sendable tables.logicals
  physicalVolumes : Web.Sendable tables.physicalVolumes
  volumeGroups : Web.Sendable tables.volumeGroups
  logicalVolumes : Web.Sendable tables.logicalVolumes

/-- What came back shows what was sent. -/
def Shows (restored : Option Value) (value : Value) : Prop :=
  ∃ other, restored = some other ∧ other.Same (Value.rounded value)

structure PageData.Shows (data : PageData) (tables : PageTables) : Prop where
  logicals : Web.Shows data.logicals tables.logicals
  physicals : Web.Shows data.physicals tables.physicals
  physicalVolumes : Web.Shows data.physicalVolumes tables.physicalVolumes
  volumeGroups : Web.Shows data.volumeGroups tables.volumeGroups
  logicalVolumes : Web.Shows data.logicalVolumes tables.logicalVolumes

theorem b64decode_b64encode {data : List Char} (h : IsBytes data) :
    b64decode (b64encode data) = data :=
  b64decode_of_filter_eq h rfl

theorem restoredInput_eq {inputs : Inputs} (name : String) {value : Value} (h : Sendable value)
    (hinput : inputs.lookup name.toList = some (b64encode (serializeData value))) :
    ∃ restored, restoredInput inputs name = .ok restored ∧ Shows restored value := by
  obtain ⟨restored, hrestored, hsame⟩ := restoreData_serializeData h.1
  refine ⟨some restored, ?_, restored, rfl, hsame⟩
  rw [restoredInput, hinput]
  simp only [nonNil, ok_bind, b64decode_b64encode (isBytes_serializeData h.2), hrestored]

theorem pageData_eq {inputs : Inputs} {tables : PageTables} (h : tables.Sendable)
    (hinputs : ∀ key text, ("san.".toList ++ key, text) ∈
      serializedFields (filterBase64encode (filterSerialize tables)) →
        inputs.lookup key = some text) :
    ∃ data, pageData inputs = .ok data ∧ data.Shows tables := by
  obtain ⟨logicals, hlogicals, slogicals⟩ := restoredInput_eq "serialized_logicals"
    h.logicals (hinputs _ _ (by simp [serializedFields, filterBase64encode, filterSerialize]))
  obtain ⟨physicals, hphysicals, sphysicals⟩ := restoredInput_eq "serialized_physicals"
    h.physicals (hinputs _ _ (by simp [serializedFields, filterBase64encode, filterSerialize]))
  obtain ⟨pvs, hpvs, spvs⟩ := restoredInput_eq "serialized_physical_volumes"
    h.physicalVolumes
      (hinputs _ _ (by simp [serializedFields, filterBase64encode, filterSerialize]))
  obtain ⟨vgs, hvgs, svgs⟩ := restoredInput_eq "serialized_volume_groups"
    h.volumeGroups (hinputs _ _ (by simp [serializedFields, filterBase64encode, filterSerialize]))
  obtain ⟨lvs, hlvs, slvs⟩ := restoredInput_eq "serialized_logical_volumes"
    h.logicalVolumes
      (hinputs _ _ (by simp [serializedFields, filterBase64encode, filterSerialize]))
  refine ⟨⟨logicals, physicals, pvs, vgs, lvs⟩, ?_, ⟨slogicals, sphysicals, spvs, svgs, slvs⟩⟩
  simp only [pageData, hlogicals, hphysicals, hpvs, hvgs, hlvs, ok_bind]

/-- The fields of a form and their encodings, as a browser sends them. -/
def SentAs (form fields : List (List Char × List Char)) : Prop :=
  List.Forall₂ (fun typed sent => sent.1 = typed.1 ∧ Encodes sent.2 typed.2) form fields

theorem SentAs.names {form fields : List (List Char × List Char)} (h : SentAs form fields) :
    fields.map (·.1) = form.map (·.1) := by
  induction h with
  | nil => rfl
  | cons hfield _ ih => rw [List.map_cons, List.map_cons, hfield.1, ih]

section Posted

variable {order : Order} {address : List (List Char) → List Char}
variable {form fields : List (List Char × List Char)}

def postedInputs (order : Order) (address : List (List Char) → List Char)
    (fields : List (List Char × List Char)) : Inputs :=
  decodedInputs order (formvaluetable order address (posted fields ∅) "san".toList)

theorem lookup_posted_sent (hsent : SentAs form fields) (name : List Char) :
    (posted fields ∅).lookup name = fieldParam name form := by
  have hdecoded : (fields.map fun field => (field.1, urldecode field.2 false)) = form := by
    induction hsent with
    | nil => rfl
    | cons hfield _ ih =>
        rw [List.map_cons, ih, hfield.1, urldecode_encodes hfield.2]
  rw [lookup_posted, hdecoded]

theorem lookup_postedInputs (hsent : SentAs form fields)
    (hnames : ∀ field ∈ form, PlainName field.1) (key : List Char) :
    (postedInputs order address fields).lookup key =
      (fieldParam ("san.".toList ++ key) form).map (Param.tostring address) := by
  rw [← lookup_posted_sent hsent]
  refine (lookup_decodedInputs (fun name hname => urldecode_plain fun c hc => ?_) key).trans
    (lookup_formvaluetable _ _ key)
  have hlookup : ((formvaluetable order address (posted fields ∅) "san".toList).lookup
      name).isSome = true := AList.lookup_isSome.mpr (AList.mem_keys.mpr hname)
  rw [lookup_formvaluetable, Option.isSome_map, AList.lookup_isSome, AList.mem_keys,
    mem_keys_posted, hsent.names] at hlookup
  rcases hlookup with hempty | hin
  · simp at hempty
  · obtain ⟨field, hfield, hname⟩ := List.mem_map.mp hin
    have hplain := (hnames field hfield).2 c (by simp [hname, hc])
    exact ⟨hplain.2.2.2.1, hplain.2.2.2.2⟩

theorem mem_keys_postedInputs (hsent : SentAs form fields)
    (hnames : ∀ field ∈ form, PlainName field.1) (key : List Char) :
    key ∈ (postedInputs order address fields).keys ↔
      "san.".toList ++ key ∈ form.map (·.1) := by
  rw [← AList.mem_keys, ← AList.lookup_isSome, lookup_postedInputs hsent hnames,
    ← lookup_posted_sent hsent, Option.isSome_map, AList.lookup_isSome, AList.mem_keys,
    mem_keys_posted, hsent.names]
  simp

theorem lookup_postedInputs_once (hsent : SentAs form fields)
    (hnames : ∀ field ∈ form, PlainName field.1) {key text : List Char}
    (hin : ("san.".toList ++ key, text) ∈ form) (honce : Once ("san.".toList ++ key) form) :
    (postedInputs order address fields).lookup key = some text := by
  rw [lookup_postedInputs hsent hnames, fieldParam_once honce hin]
  rfl

end Posted

def percentAll (text : List Char) : List Char :=
  text.flatMap fun c => ['%', hexDigit (c.toNat / 16), hexDigit (c.toNat % 16)]

theorem encodes_percentAll {text : List Char} (h : IsBytes text) :
    Encodes (percentAll text) text := by
  induction text with
  | nil => exact .nil
  | cons c text ih =>
      exact .percent (charOfHex_hexDigit (h c (by simp))) (ih fun d hd => h d (by simp [hd]))

theorem SentAs.percentAll {form : List (List Char × List Char)}
    (h : ∀ field ∈ form, IsBytes field.2) :
    SentAs form (form.map fun field => (field.1, Web.percentAll field.2)) := by
  rw [SentAs, List.forall₂_map_right_iff]
  exact List.forall₂_same.mpr fun field hfield => ⟨rfl, encodes_percentAll (h field hfield)⟩

def emptyTables : PageTables :=
  ⟨.table 0 [], .table 0 [], .table 0 [], .table 0 [], .table 0 []⟩

def emptyForm : List (List Char × List Char) :=
  serializedFields (filterBase64encode (filterSerialize emptyTables)) ++
    [("san.physical_id".toList, "0:2".toList), ("san.physical_id".toList, "0:3".toList),
      ("san.raid_level".toList, "1".toList),
      ("san.submit_logical_add".toList, "Create".toList)]

def emptyBody : List Char :=
  formBody (emptyForm.map fun field => (field.1, percentAll field.2))

theorem emptyTables_sendable : emptyTables.Sendable := by
  have hempty : Sendable (.table 0 []) :=
    ⟨.table (by simp) (by simp) (by simp), .table (by simp) (by simp)⟩
  exact ⟨hempty, hempty, hempty, hempty, hempty⟩

end OpenSan.Web
