import Mathlib.Data.List.Induction
import OpenSan.Foundation.Stream
import OpenSan.Web.Urlencoding

/-!
# The body of a request

`urldecode_message_body` of `luci.http.protocol` and the access to its parameters.
The body arrives in chunks.  A pair is taken as soon as its separator has arrived, the
value is decoded and the key is not; a key that comes again makes an array.
-/

namespace OpenSan.Web

open OpenSan.Foundation

inductive Param where
  | text (value : List Char)
  | array (values : List (List Char))
  deriving DecidableEq

abbrev Params := Table (List Char) Param

def initval (params : Params) (key : List Char) : Params :=
  match params.lookup key with
  | none => params.insert key (.text [])
  | some (.text value) => params.insert key (.array [value, []])
  | some (.array values) => params.insert key (.array (values ++ [[]]))

def Param.changeLast (f : List Char → List Char) : Param → Param
  | .text value => .text (f value)
  | .array values => .array (values.dropLast ++ (values.getLast?.map f).toList)

def changeval (params : Params) (key : List Char) (f : List Char → List Char) : Params :=
  match params.lookup key with
  | none => params
  | some param => params.insert key (param.changeLast f)

def appendval (params : Params) (key : List Char) (chunk : Option (List Char)) :
    Except Error Params := do
  let chunk ← nonNil "local 'chunk'" chunk
  .ok (changeval params key (· ++ chunk))

def finishval (params : Params) (key : List Char) (handler : List Char → List Char) : Params :=
  changeval params key handler

def pairKey (pair : List Char) : Option (List Char) :=
  if '=' ∈ pair then some (pair.takeWhile (· ≠ '=')) else none

def pairValue : List Char → Option (List Char)
  | [] => none
  | c :: rest =>
      if c = '=' ∧ (rest.dropWhile fun d => !Number.isSpace d).all Number.isSpace then
        some (rest.takeWhile fun d => !Number.isSpace d)
      else pairValue rest

def takePair (params : Params) (pair : List Char) : Except Error Params :=
  match pairKey pair with
  | none => .ok params
  | some key =>
      if key.length > 0 then do
        let params ← appendval (initval params key) key (pairValue pair)
        .ok (finishval params key fun value => urldecode value false)
      else .ok params

def isSeparator (c : Char) : Bool := c = ';' || c = '&'

/-! ## The sink -/

structure Sink where
  tlen : Nat
  lchunk : Option (List Char)
  params : Params

def httpMaxContent : Nat := 1024 * 512

/-- `none` is the end of the body: what still waits is ended like a pair. -/
def takeChunk (state : Params × Option (List Char)) (chunk : Option (List Char)) :
    Except Error (Params × Option (List Char)) :=
  match chunk with
  | some chunk => takePiece isSeparator takePair state chunk
  | none => takeLast isSeparator takePair '&' state

def chunkSize (chunk : Option (List Char)) : Nat := (chunk.map List.length).getD 0

def snk (contentLength : Option Nat) (sink : Sink) (chunk : Option (List Char)) :
    Except Error (Sink × Option String) :=
  let tlen := sink.tlen + chunkSize chunk
  if contentLength.any fun limit => tlen > limit + 2 then
    .ok (⟨tlen, sink.lchunk, sink.params⟩, some "Message body size exceeds Content-Length")
  else if tlen > httpMaxContent then
    .ok (⟨tlen, sink.lchunk, sink.params⟩,
      some "Message body size exceeds maximum allowed length")
  else do
    let (params, lchunk) ← takeChunk (sink.params, sink.lchunk) chunk
    .ok (⟨tlen, lchunk, params⟩, none)

def pumpAll (contentLength : Option Nat) : Sink → List (List Char) →
    Except Error (Sink × Option String)
  | sink, [] => snk contentLength sink none
  | sink, chunk :: chunks => do
      let (sink, refusal) ← snk contentLength sink (some chunk)
      if refusal.isSome then .ok (sink, refusal) else pumpAll contentLength sink chunks

def urldecodeMessageBody (contentLength : Option Nat) (params : Params)
    (chunks : List (List Char)) : Except Error (Params × Option String) := do
  let (sink, refusal) ← pumpAll contentLength ⟨0, none, params⟩ chunks
  .ok (sink.params, refusal)

def pairsOf (body : List Char) (params : Params) : Except Error Params :=
  takeRecords isSeparator takePair body params

def WithinLimits (contentLength : Option Nat) (size : Nat) : Prop :=
  (∀ limit ∈ contentLength, size ≤ limit + 2) ∧ size ≤ httpMaxContent

instance (contentLength : Option Nat) (size : Nat) :
    Decidable (WithinLimits contentLength size) :=
  inferInstanceAs (Decidable ((∀ limit ∈ contentLength, _) ∧ _))

theorem WithinLimits.mono {contentLength : Option Nat} {size smaller : Nat}
    (h : WithinLimits contentLength size) (hle : smaller ≤ size) :
    WithinLimits contentLength smaller :=
  ⟨fun limit hlimit => hle.trans (h.1 limit hlimit), hle.trans h.2⟩

theorem snk_within {contentLength : Option Nat} {sink : Sink} {chunk : Option (List Char)}
    (h : WithinLimits contentLength (sink.tlen + chunkSize chunk)) :
    snk contentLength sink chunk =
      (takeChunk (sink.params, sink.lchunk) chunk).map fun result =>
        (⟨sink.tlen + chunkSize chunk, result.2, result.1⟩, none) := by
  have hlength : (contentLength.any fun limit =>
      sink.tlen + chunkSize chunk > limit + 2) = false := by
    cases contentLength with
    | none => rfl
    | some limit => simpa using h.1 limit rfl
  unfold snk
  simp only [hlength, Bool.false_eq_true, if_false]
  rw [if_neg (not_lt.mpr h.2)]
  cases takeChunk (sink.params, sink.lchunk) chunk with
  | error e => rfl
  | ok result => rfl

theorem snk_over {contentLength : Option Nat} {sink : Sink} {chunk : Option (List Char)}
    (h : ¬WithinLimits contentLength (sink.tlen + chunkSize chunk)) :
    ∃ refused text, snk contentLength sink chunk = .ok (refused, some text) := by
  unfold snk
  dsimp only
  split
  · exact ⟨_, _, rfl⟩
  · rename_i hlength
    split
    · exact ⟨_, _, rfl⟩
    · rename_i hmax
      refine absurd ⟨fun limit hlimit => ?_, not_lt.mp hmax⟩ h
      obtain rfl : contentLength = some limit := hlimit
      simpa using hlength

theorem pumpAll_within {contentLength : Option Nat} {sink : Sink} {chunks : List (List Char)}
    (h : WithinLimits contentLength (sink.tlen + chunks.flatten.length)) :
    (pumpAll contentLength sink chunks).map (fun result => (result.1.params, result.2)) =
      (chunks.foldlM (takePiece isSeparator takePair) (sink.params, sink.lchunk) >>=
        takeLast isSeparator takePair '&').map fun result => (result.1, none) := by
  induction chunks generalizing sink with
  | nil =>
      rw [pumpAll, snk_within (by simpa [chunkSize] using h)]
      change _ = (takeLast isSeparator takePair '&' (sink.params, sink.lchunk)).map _
      unfold takeChunk
      cases takeLast isSeparator takePair '&' (sink.params, sink.lchunk) <;> rfl
  | cons chunk chunks ih =>
      rw [List.flatten_cons, List.length_append, ← Nat.add_assoc] at h
      rw [pumpAll, snk_within (h.mono (by simp [chunkSize])), List.foldlM_cons]
      simp only [takeChunk]
      cases takePiece isSeparator takePair (sink.params, sink.lchunk) chunk with
      | error e => rfl
      | ok result =>
          have hnext : WithinLimits contentLength
              ((⟨sink.tlen + chunk.length, result.2, result.1⟩ : Sink).tlen +
                chunks.flatten.length) := h
          exact ih hnext

theorem within_of_pumpAll {contentLength : Option Nat} {sink last : Sink}
    {chunks : List (List Char)} (h : pumpAll contentLength sink chunks = .ok (last, none)) :
    WithinLimits contentLength (sink.tlen + chunks.flatten.length) := by
  induction chunks generalizing sink with
  | nil =>
      by_contra hover
      have hnone : ¬WithinLimits contentLength (sink.tlen + chunkSize none) := hover
      obtain ⟨refused, text, hrefused⟩ := snk_over hnone
      rw [pumpAll, hrefused] at h
      simp at h
  | cons chunk chunks ih =>
      rw [pumpAll] at h
      by_cases hwithin : WithinLimits contentLength (sink.tlen + chunkSize (some chunk))
      · rw [snk_within hwithin] at h
        obtain ⟨⟨next, refusal⟩, hnext, h⟩ := bind_eq_ok.mp h
        cases htaken : takeChunk (sink.params, sink.lchunk) (some chunk) with
        | error e =>
            rw [htaken] at hnext
            cases hnext
        | ok result =>
            rw [htaken] at hnext
            obtain ⟨rfl, rfl⟩ := Prod.mk.inj (Except.ok.inj hnext)
            have hrest := ih h
            rwa [List.flatten_cons, List.length_append, ← Nat.add_assoc]
      · obtain ⟨refused, text, hrefused⟩ := snk_over hwithin
        rw [hrefused] at h
        simp [bind, Except.bind] at h

theorem takePair_nil (params : Params) : takePair params [] = .ok params := rfl

theorem urldecodeMessageBody_eq_map (contentLength : Option Nat) (params : Params)
    (chunks : List (List Char)) :
    urldecodeMessageBody contentLength params chunks =
      (pumpAll contentLength ⟨0, none, params⟩ chunks).map fun result =>
        (result.1.params, result.2) := by
  unfold urldecodeMessageBody
  cases pumpAll contentLength ⟨0, none, params⟩ chunks <;> rfl

theorem urldecodeMessageBody_within {contentLength : Option Nat} {chunks : List (List Char)}
    (h : WithinLimits contentLength chunks.flatten.length) (params : Params) :
    urldecodeMessageBody contentLength params chunks =
      (pairsOf chunks.flatten params).map fun result => (result, none) := by
  have hampersand : isSeparator '&' = true := rfl
  have hpairs := takePieces_eq takePair_nil hampersand chunks params
  rw [urldecodeMessageBody_eq_map, pumpAll_within (by simpa using h), pairsOf, ← hpairs]
  cases chunks.foldlM (takePiece isSeparator takePair) (params, none) >>=
    takeLast isSeparator takePair '&' <;> rfl

/-- Whatever the chunks are: a body is accepted when it keeps to the limits, and then its
parameters are those of its pairs. -/
theorem urldecodeMessageBody_eq_ok (contentLength : Option Nat) (params result : Params)
    (chunks : List (List Char)) :
    urldecodeMessageBody contentLength params chunks = .ok (result, none) ↔
      WithinLimits contentLength chunks.flatten.length ∧
        pairsOf chunks.flatten params = .ok result := by
  have hwithin : urldecodeMessageBody contentLength params chunks = .ok (result, none) →
      WithinLimits contentLength chunks.flatten.length := by
    intro h
    rw [urldecodeMessageBody_eq_map] at h
    cases hrun : pumpAll contentLength ⟨0, none, params⟩ chunks with
    | error e =>
        rw [hrun] at h
        cases h
    | ok final =>
        obtain ⟨last, refusal⟩ := final
        rw [hrun] at h
        obtain ⟨-, rfl⟩ := Prod.mk.inj (Except.ok.inj h)
        simpa using within_of_pumpAll hrun
  constructor
  · intro h
    have hlimits := hwithin h
    rw [urldecodeMessageBody_within hlimits] at h
    refine ⟨hlimits, ?_⟩
    cases hrun : pairsOf chunks.flatten params with
    | error e =>
        rw [hrun] at h
        cases h
    | ok value =>
        rw [hrun] at h
        obtain ⟨rfl, -⟩ := Prod.mk.inj (Except.ok.inj h)
        rfl
  · rintro ⟨hlimits, hrun⟩
    rw [urldecodeMessageBody_within hlimits, hrun]
    rfl

/-! ## The body of a form -/

def addParam (params : Params) (key value : List Char) : Params :=
  params.insert key
    (match params.lookup key with
      | none => .text value
      | some (.text other) => .array [other, value]
      | some (.array others) => .array (others ++ [value]))

theorem changeval_insert (params : Params) (key : List Char) (param : Param)
    (f : List Char → List Char) :
    changeval (params.insert key param) key f = params.insert key (param.changeLast f) := by
  simp [changeval]

theorem takePair_field {name encoded : List Char} (hname : name ≠ [])
    (hplain : '=' ∉ name) (hspace : ∀ c ∈ encoded, Number.isSpace c = false)
    (params : Params) :
    takePair params (name ++ '=' :: encoded) =
      .ok (addParam params name (urldecode encoded false)) := by
  have hkey : pairKey (name ++ '=' :: encoded) = some name := by
    have hrun : ∀ c ∈ name, decide (c ≠ '=') = true := by
      intro c hc
      simp only [decide_eq_true_eq]
      rintro rfl
      exact hplain hc
    rw [pairKey, if_pos (by simp), List.takeWhile_append_of_pos hrun]
    simp
  have hvalue : pairValue (name ++ '=' :: encoded) = some encoded := by
    have hall : ∀ c ∈ encoded, (!Number.isSpace c) = true := fun c hc => by simp [hspace c hc]
    have htake : encoded.takeWhile (fun c => !Number.isSpace c) = encoded :=
      List.takeWhile_eq_self_iff.mpr hall
    have hdrop : encoded.dropWhile (fun c => !Number.isSpace c) = [] :=
      List.dropWhile_eq_nil_iff.mpr hall
    clear hkey hname
    induction name with
    | nil => simp [pairValue, htake, hdrop]
    | cons c name ih =>
        simp only [List.mem_cons, not_or] at hplain
        rw [List.cons_append, pairValue, if_neg (fun h => hplain.1 h.1.symm)]
        exact ih hplain.2
  have hlength : name.length > 0 := List.length_pos_iff.mpr hname
  unfold takePair appendval finishval initval addParam
  simp only [hkey, hvalue, if_pos hlength, nonNil, ok_bind]
  split <;> simp [changeval_insert, Param.changeLast]

/-- The fields of a form as the browser sends them: name, equals sign and encoded value,
with ampersands between. -/
def formBody (fields : List (List Char × List Char)) : List Char :=
  List.intercalate ['&'] (fields.map fun field => field.1 ++ '=' :: field.2)

def PlainName (name : List Char) : Prop :=
  name ≠ [] ∧ ∀ c ∈ name, c ≠ '=' ∧ c ≠ '&' ∧ c ≠ ';' ∧ c ≠ '%' ∧ c ≠ '+'

instance (name : List Char) : Decidable (PlainName name) :=
  decidable_of_iff
    (name ≠ [] ∧ name.all (fun c => c ≠ '=' ∧ c ≠ '&' ∧ c ≠ ';' ∧ c ≠ '%' ∧ c ≠ '+') = true)
    (by simp [PlainName])

theorem splitOnP_intercalate {records : List (List Char)} (hne : records ≠ [])
    (h : ∀ record ∈ records, ∀ c ∈ record, isSeparator c = false) :
    (List.intercalate ['&'] records).splitOnP isSeparator = records := by
  induction records with
  | nil => exact absurd rfl hne
  | cons record records ih =>
      simp only [List.forall_mem_cons] at h
      cases records with
      | nil =>
          rw [List.intercalate_singleton]
          exact List.splitOnP_eq_singleton h.1
      | cons next records =>
          rw [List.intercalate_cons_cons, List.append_assoc, List.singleton_append,
            List.splitOnP_append_cons record _ (by decide), List.splitOnP_eq_singleton h.1,
            ih (by simp) h.2]
          rfl

/-- The parameters of a form. -/
def posted (fields : List (List Char × List Char)) (params : Params) : Params :=
  fields.foldl (fun params field => addParam params field.1 (urldecode field.2 false)) params

theorem pairsOf_formBody {fields : List (List Char × List Char)}
    (hnames : ∀ field ∈ fields, PlainName field.1)
    (hvalues : ∀ field ∈ fields, ∃ text, Encodes field.2 text) (params : Params) :
    pairsOf (formBody fields) params = .ok (posted fields params) := by
  have htake : ∀ (fields : List (List Char × List Char)) (params : Params),
      (∀ field ∈ fields, PlainName field.1) → (∀ field ∈ fields, ∃ text, Encodes field.2 text) →
      (fields.map fun field => field.1 ++ '=' :: field.2).foldlM takePair params =
        .ok (posted fields params) := by
    intro fields
    induction fields with
    | nil => exact fun _ _ _ => rfl
    | cons field fields ih =>
        intro params hnames hvalues
        simp only [List.forall_mem_cons] at hnames hvalues
        obtain ⟨text, htext⟩ := hvalues.1
        rw [List.map_cons, List.foldlM_cons, takePair_field hnames.1.1
          (fun hin => (hnames.1.2 _ hin).1 rfl) (fun c hc => (htext.chars c hc).2.2)]
        exact ih _ hnames.2 hvalues.2
  rcases List.eq_nil_or_concat fields with rfl | hsome
  · rfl
  · have hne : (fields.map fun field => field.1 ++ '=' :: field.2) ≠ [] := by
      obtain ⟨init, last, rfl⟩ := hsome
      simp
    rw [pairsOf, takeRecords, formBody, splitOnP_intercalate hne]
    · exact htake fields params hnames hvalues
    · intro record hrecord c hc
      obtain ⟨field, hfield, rfl⟩ := List.mem_map.mp hrecord
      obtain ⟨text, htext⟩ := hvalues field hfield
      rcases List.mem_append.mp hc with hin | hin
      · have hplain := (hnames field hfield).2 c hin
        simp [isSeparator, hplain]
      · rcases List.mem_cons.mp hin with rfl | hin
        · rfl
        · have hchars := htext.chars c hin
          simp [isSeparator, hchars]

theorem lookup_addParam_ne {params : Params} {key other value : List Char} (h : other ≠ key) :
    (addParam params key value).lookup other = params.lookup other :=
  AList.lookup_insert_ne h

def paramOf : List (List Char) → Option Param
  | [] => none
  | [value] => some (.text value)
  | values => some (.array values)

def fieldParam (name : List Char) (form : List (List Char × List Char)) : Option Param :=
  paramOf ((form.filter (·.1 == name)).map (·.2))

theorem paramOf_append (values : List (List Char)) (value : List Char) :
    paramOf (values ++ [value]) =
      some (match paramOf values with
        | none => .text value
        | some (.text other) => .array [other, value]
        | some (.array others) => .array (others ++ [value])) := by
  cases values with
  | nil => rfl
  | cons first values =>
      cases values with
      | nil => rfl
      | cons second values => rfl

theorem lookup_posted (fields : List (List Char × List Char)) (name : List Char) :
    (posted fields ∅).lookup name =
      fieldParam name (fields.map fun field => (field.1, urldecode field.2 false)) := by
  induction fields using List.reverseRecOn with
  | nil => rfl
  | append_singleton fields field ih =>
      have hlast : posted (fields ++ [field]) ∅ =
          addParam (posted fields ∅) field.1 (urldecode field.2 false) := by
        unfold posted
        rw [List.foldl_append]
        rfl
      rw [hlast]
      unfold fieldParam at ih ⊢
      rw [List.map_append, List.filter_append, List.map_append]
      by_cases hname : field.1 = name
      · subst hname
        rw [addParam, AList.lookup_insert, ih]
        simp [paramOf_append]
      · have hother : (field.1 == name) = false := by simpa using hname
        rw [lookup_addParam_ne (Ne.symm hname), ih]
        simp [hother]

def Once (name : List Char) (fields : List (List Char × List Char)) : Prop :=
  (fields.map (·.1)).count name = 1

instance (name : List Char) (fields : List (List Char × List Char)) :
    Decidable (Once name fields) :=
  inferInstanceAs (Decidable (_ = _))

theorem fieldParam_once {form : List (List Char × List Char)} {field : List Char × List Char}
    (honce : Once field.1 form) (hin : field ∈ form) :
    fieldParam field.1 form = some (.text field.2) := by
  have hlength : (form.filter (·.1 == field.1)).length = 1 := by
    rw [Once, List.count_eq_countP, List.countP_map, List.countP_eq_length_filter] at honce
    exact honce
  obtain ⟨found, hfound⟩ := List.length_eq_one_iff.mp hlength
  have hmem : field ∈ form.filter (·.1 == field.1) := List.mem_filter.mpr ⟨hin, by simp⟩
  rw [hfound, List.mem_singleton] at hmem
  rw [fieldParam, hfound, hmem]
  rfl

theorem mem_keys_posted {fields : List (List Char × List Char)} {params : Params}
    {name : List Char} :
    name ∈ (posted fields params).keys ↔ name ∈ params.keys ∨ name ∈ fields.map (·.1) := by
  induction fields generalizing params with
  | nil => simp [posted]
  | cons field fields ih =>
      have hstep : name ∈ (addParam params field.1 (urldecode field.2 false)).keys ↔
          name = field.1 ∨ name ∈ params.keys := by
        rw [← AList.mem_keys, addParam, AList.mem_insert, AList.mem_keys]
      refine ih.trans ?_
      rw [hstep, List.map_cons, List.mem_cons]
      tauto

end OpenSan.Web
