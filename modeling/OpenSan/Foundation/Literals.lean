import OpenSan.Foundation.NumberText

/-!
# Literals of Lua

The values a Lua expression without variables, calls and operators stands for,
and a reader of such expressions: `nil`, `true`, `false`, numbers with an optional
minus, quoted strings and table constructors.  Anything else is not read.  A field
`name = value` of a constructor, a comment and a long bracket are among that.
-/

namespace OpenSan.Foundation

inductive Scalar where
  | number (x : ℚ)
  | string (text : List Char)
  | boolean (value : Bool)
  deriving DecidableEq

/-- The entries of a table stand in the order in which `pairs` visits them.  `length`
is what `#` gives: with holes the language leaves it open. -/
inductive Value where
  | scalar (value : Scalar)
  | table (length : Nat) (entries : List (Scalar × Value))

section Fold

variable {β : Type} (scalar : Scalar → β) (table : Nat → List (Scalar × β) → β)

mutual

def Value.fold : Value → β
  | .scalar value => scalar value
  | .table length entries => table length (foldEntries entries)

def Value.foldEntries : List (Scalar × Value) → List (Scalar × β)
  | [] => []
  | entry :: entries => foldEntry entry :: foldEntries entries

def Value.foldEntry : Scalar × Value → Scalar × β
  | (key, value) => (key, value.fold)

end

theorem Value.fold_table (length : Nat) (entries : List (Scalar × Value)) :
    (Value.table length entries).fold scalar table =
      table length (entries.map fun entry => (entry.1, entry.2.fold scalar table)) := by
  have hentries : Value.foldEntries scalar table entries =
      entries.map fun entry => (entry.1, entry.2.fold scalar table) := by
    induction entries with
    | nil => rfl
    | cons entry entries ih => rw [Value.foldEntries, ih, Value.foldEntry, List.map_cons]
  rw [Value.fold, hentries]

end Fold

/-! ## What a script sees of a value -/

def Value.lookup (key : Scalar) : Value → Option Value
  | .scalar _ => none
  | .table _ entries => entries.lookup key

def Value.follow : List Scalar → Value → Option Value
  | [], value => some value
  | key :: path, value => (value.lookup key).bind (follow path)

def Value.leaf : Value → Option Scalar
  | .scalar value => some value
  | .table _ _ => none

/-- Along every path the two values show the same: nothing, a table or a scalar. -/
def Value.Same (first second : Value) : Prop :=
  ∀ path, (first.follow path).map Value.leaf = (second.follow path).map Value.leaf

/-! ## Table constructors -/

inductive TableField (α : Type) where
  | positional (value : Option α)
  | keyed (key : Scalar) (value : Option α)

def store {α : Type} (key : Scalar) (value : Option α) (entries : List (Scalar × α)) :
    List (Scalar × α) :=
  entries.filter (·.1 ≠ key) ++ (value.map fun v => (key, v)).toList

/-- The first argument is the place of the next positional field. -/
def assemble {α : Type} : Nat → List (TableField α) → List (Scalar × α) → List (Scalar × α)
  | _, [], entries => entries
  | place, .positional value :: fields, entries =>
      assemble (place + 1) fields (store (.number place) value entries)
  | place, .keyed key value :: fields, entries => assemble place fields (store key value entries)

def firstBorder {α : Type} (entries : List (Scalar × α)) : Nat :=
  ((List.range entries.length).find? fun n =>
    (entries.lookup (.number (n + 1 : Nat))).isNone).getD entries.length

def constructed (fields : List (TableField Value)) : Value :=
  let entries := assemble 1 fields []
  .table (firstBorder entries) entries

/-! ## The reader -/

def skipSpaces (text : List Char) : List Char := text.dropWhile Number.isSpace

def isLineEnd (c : Char) : Bool := c == '\n' || c == '\r'

def readEscape : List Char → Option (Char × List Char)
  | [] => none
  | c :: rest =>
      if c = 'n' then some ('\n', rest)
      else if c = 'r' then some ('\r', rest)
      else if c = 't' then some ('\t', rest)
      else if c = 'a' then some ('\x07', rest)
      else if c = 'b' then some ('\x08', rest)
      else if c = 'f' then some ('\x0c', rest)
      else if c = 'v' then some ('\x0b', rest)
      else if isLineEnd c then
        -- The two characters of one line end count as one.
        some ('\n', rest.drop (if (rest.head?.any fun d => isLineEnd d && d != c) then 1 else 0))
      else if Pattern.digit c then
        let digits := ((c :: rest).take 3).takeWhile Pattern.digit
        if Number.digitsValue digits < 256 then
          some (Char.ofNat (Number.digitsValue digits), (c :: rest).drop digits.length)
        else none
      else some (c, rest)

def readQuoted : Nat → List Char → Option (List Char × List Char)
  | 0, _ => none
  | _ + 1, [] => none
  | fuel + 1, c :: rest =>
      if c = '"' then some ([], rest)
      else if isLineEnd c then none
      else if c = '\\' then do
        let (d, rest) ← readEscape rest
        let (text, rest) ← readQuoted fuel rest
        some (d :: text, rest)
      else do
        let (text, rest) ← readQuoted fuel rest
        some (c :: text, rest)

def readWord (text : List Char) : Option (Option Value × List Char) :=
  let word := text.takeWhile Number.isName
  let rest := text.dropWhile Number.isName
  if word = "nil".toList then some (none, rest)
  else if word = "true".toList then some (some (.scalar (.boolean true)), rest)
  else if word = "false".toList then some (some (.scalar (.boolean false)), rest)
  else none

def asKey : Option Value → Option Scalar
  | some (.scalar key) => some key
  | _ => none

mutual

def readValue : Nat → List Char → Option (Option Value × List Char)
  | 0, _ => none
  | fuel + 1, text =>
      match skipSpaces text with
      | [] => none
      | c :: rest =>
          if c = '{' then do
            let (fields, rest) ← readFields fuel rest
            some (some (constructed fields), rest)
          else if c = '"' then do
            let (text, rest) ← readQuoted fuel rest
            some (some (.scalar (.string text)), rest)
          else if c = '-' then do
            let (x, rest) ← Number.readNumber (skipSpaces rest)
            some (some (.scalar (.number (-x))), rest)
          else if Pattern.digit c then do
            let (x, rest) ← Number.readNumber (c :: rest)
            some (some (.scalar (.number x)), rest)
          else readWord (c :: rest)

def readFields : Nat → List Char → Option (List (TableField Value) × List Char)
  | 0, _ => none
  | fuel + 1, text =>
      match skipSpaces text with
      | [] => none
      | c :: rest =>
          if c = '}' then some ([], rest)
          else if c = '[' then do
            let (key, rest) ← readValue fuel rest
            let key ← asKey key
            match skipSpaces rest with
            | ']' :: rest =>
                match skipSpaces rest with
                | '=' :: rest => do
                    let (value, rest) ← readValue fuel rest
                    readMore fuel (.keyed key value) rest
                | _ => none
            | _ => none
          else do
            let (value, rest) ← readValue fuel text
            readMore fuel (.positional value) rest

def readMore : Nat → TableField Value → List Char → Option (List (TableField Value) × List Char)
  | 0, _, _ => none
  | fuel + 1, field, text =>
      match skipSpaces text with
      | [] => none
      | c :: rest =>
          if c = ',' ∨ c = ';' then do
            let (fields, rest) ← readFields fuel rest
            some (field :: fields, rest)
          else if c = '}' then some ([field], rest)
          else none

end

def returned (text : List Char) : Option (Option Value) :=
  if skipSpaces text = [] then some none
  else
    match readValue (2 * text.length + 1) text with
    | some (value, rest) => if skipSpaces rest = [] then some value else none
    | none => none

/-! ## Quoted strings -/

def quoteChar (c : Char) : List Char :=
  if c = '"' ∨ c = '\\' ∨ c = '\n' then ['\\', c]
  else if c = '\r' then "\\r".toList
  else if c = '\x00' then "\\000".toList
  else [c]

def quoted (text : List Char) : List Char := '"' :: text.flatMap quoteChar ++ ['"']

theorem quoted_tail (text rest : List Char) :
    ∀ c ∈ (text.flatMap quoteChar ++ '"' :: rest).head?, isLineEnd c = false := by
  cases text with
  | nil => simp; rfl
  | cons c text =>
      have hfirst : ∀ d ∈ (quoteChar c).head?, isLineEnd d = false := by
        unfold quoteChar
        split
        · simp; rfl
        · split
          · simp; rfl
          · split
            · simp; rfl
            · rename_i hplain hreturn hzero
              simp [isLineEnd] at hplain hreturn ⊢
              exact ⟨hplain.2.2, hreturn⟩
      have hne : quoteChar c ≠ [] := by
        unfold quoteChar
        split
        · simp
        · split
          · simp
          · split <;> simp
      rw [List.flatMap_cons, List.append_assoc, List.head?_append_of_ne_nil _ hne]
      exact hfirst

theorem readQuoted_quoteChar (c : Char) (fuel : Nat) {rest : List Char}
    (hrest : ∀ d ∈ rest.head?, isLineEnd d = false) :
    readQuoted (fuel + 1) (quoteChar c ++ rest) =
      (readQuoted fuel rest >>= fun (text, rest) => some (c :: text, rest)) := by
  have hbackslash : ('\\' : Char) ≠ '"' := by decide
  unfold quoteChar
  split
  · rename_i hescaped
    rcases hescaped with rfl | rfl | rfl
    · rfl
    · rfl
    · have hkept : rest.head?.any (fun d => isLineEnd d && d != '\n') = false := by
        cases hhead : rest.head? with
        | none => rfl
        | some d => simp [hrest d hhead]
      have hescape : readEscape ('\n' :: rest) = some ('\n', rest) := by
        simp [readEscape, hkept, show isLineEnd '\n' = true from rfl]
      simp [readQuoted, hescape, show isLineEnd '\\' = false from rfl]
  · split
    · rename_i hreturn
      subst hreturn
      rfl
    · split
      · rename_i hzero
        subst hzero
        rfl
      · rename_i hplain hreturn hzero
        simp only [not_or] at hplain
        have hline : isLineEnd c = false := by simp [isLineEnd, hplain.2.2, hreturn]
        simp [readQuoted, hplain, hline]

theorem readQuoted_quoted (text rest : List Char) {fuel : Nat} (hfuel : text.length < fuel) :
    readQuoted fuel (text.flatMap quoteChar ++ '"' :: rest) = some (text, rest) := by
  induction text generalizing fuel with
  | nil =>
      obtain ⟨fuel, rfl⟩ := Nat.exists_eq_succ_of_ne_zero (by omega : fuel ≠ 0)
      simp [readQuoted]
  | cons c text ih =>
      obtain ⟨fuel, rfl⟩ := Nat.exists_eq_succ_of_ne_zero (by omega : fuel ≠ 0)
      rw [List.length_cons] at hfuel
      rw [List.flatMap_cons, List.append_assoc, readQuoted_quoteChar c fuel (quoted_tail text rest),
        ih (by omega)]
      rfl

/-! ## What the reader makes of a text -/

/-- The text is read as the value, whatever delimiter comes next. -/
def Reads (text : List Char) (value : Option Value) : Prop :=
  ∀ rest fuel, Number.Delimited rest → 2 * (text ++ rest).length < fuel →
    readValue fuel (text ++ rest) = some (value, rest)

theorem delimited_nil : Number.Delimited [] := by simp [Number.Delimited]

theorem skipSpaces_cons {c : Char} (rest : List Char) (h : Number.isSpace c = false) :
    skipSpaces (c :: rest) = c :: rest := by
  simp [skipSpaces, h]

theorem skipSpaces_space (rest : List Char) : skipSpaces (' ' :: rest) = skipSpaces rest := by
  simp [skipSpaces, show Number.isSpace ' ' = true from rfl]

theorem reads_word {word : List Char} {value : Option Value} {c : Char} {tail : List Char}
    (hword : word = c :: tail) (hname : ∀ d ∈ word, Number.isName d = true)
    (hfirst : Number.isSpace c = false ∧ c ≠ '{' ∧ c ≠ '"' ∧ c ≠ '-' ∧ Pattern.digit c = false)
    (hread : ∀ rest, Number.Delimited rest → readWord (word ++ rest) = some (value, rest)) :
    Reads word value := by
  intro rest fuel hrest hfuel
  obtain ⟨fuel, rfl⟩ := Nat.exists_eq_succ_of_ne_zero (by omega : fuel ≠ 0)
  subst hword
  have hword := hread rest hrest
  rw [List.cons_append] at hword ⊢
  rw [readValue, skipSpaces_cons _ hfirst.1]
  simp [hfirst, hword]

private theorem word_span (word : List Char) {rest : List Char}
    (hname : ∀ d ∈ word, Number.isName d = true)
    (hrest : Number.Delimited rest) :
    (word ++ rest).takeWhile Number.isName = word ∧
      (word ++ rest).dropWhile Number.isName = rest :=
  Number.span_append hname fun c hc => (hrest c hc).1

theorem reads_nil : Reads "nil".toList none := by
  refine reads_word rfl (List.all_eq_true.mp rfl) (by decide) fun rest hrest => ?_
  obtain ⟨htake, hdrop⟩ := word_span "nil".toList (List.all_eq_true.mp rfl) hrest
  simp only [readWord, htake, hdrop, if_true]

theorem reads_boolean (b : Bool) :
    Reads (if b then "true".toList else "false".toList) (some (.scalar (.boolean b))) := by
  cases b with
  | false =>
      refine reads_word rfl (List.all_eq_true.mp rfl) (by decide) fun rest hrest => ?_
      obtain ⟨htake, hdrop⟩ := word_span "false".toList (List.all_eq_true.mp rfl) hrest
      have hnil : "false".toList ≠ "nil".toList := by decide
      have htrue : "false".toList ≠ "true".toList := by decide
      simp only [Bool.false_eq_true, if_false, readWord, htake, hdrop, hnil, htrue, if_true]
  | true =>
      refine reads_word rfl (List.all_eq_true.mp rfl) (by decide) fun rest hrest => ?_
      obtain ⟨htake, hdrop⟩ := word_span "true".toList (List.all_eq_true.mp rfl) hrest
      have hnil : "true".toList ≠ "nil".toList := by decide
      simp only [if_true, readWord, htake, hdrop, hnil, if_false]

private theorem digit_first {c : Char} (h : Pattern.digit c = true) :
    Number.isSpace c = false ∧ c ≠ '{' ∧ c ≠ '"' ∧ c ≠ '-' := by
  refine ⟨?_, ?_, ?_, ?_⟩
  · exact Number.isSpace_of_digit h
  all_goals rintro rfl; exact absurd h (by decide)

private theorem readValue_positive {x : ℚ} (h : 0 < x) {rest : List Char}
    (hrest : Number.Delimited rest) (fuel : Nat) :
    readValue (fuel + 1) (Number.positiveText x ++ rest) =
      some (some (.scalar (.number (Number.double (Number.positiveRounded x)))), rest) := by
  obtain ⟨c, tail, htext, hdigit⟩ := Number.positiveText_cons h
  have hnumber := Number.readNumber_positiveText h hrest
  obtain ⟨hspace, hbrace, hquote, hminus⟩ := digit_first hdigit
  rw [htext, List.cons_append] at hnumber ⊢
  rw [readValue, skipSpaces_cons _ hspace]
  simp [hbrace, hquote, hminus, hdigit, hnumber]

theorem reads_number (x : ℚ) :
    Reads (Number.tostring x) (some (.scalar (.number (Number.restored x)))) := by
  intro rest fuel hrest hfuel
  obtain ⟨fuel, rfl⟩ := Nat.exists_eq_succ_of_ne_zero (by omega : fuel ≠ 0)
  unfold Number.tostring Number.restored Number.rounded
  split
  · have hzero := Number.readNumber_zero hrest
    rw [List.singleton_append, readValue, skipSpaces_cons _ rfl]
    simp [hzero, show Pattern.digit '0' = true from rfl]
  · split
    · rename_i hneg
      have hpos : 0 < -x := by linarith
      obtain ⟨c, tail, htext, hdigit⟩ := Number.positiveText_cons hpos
      have hnumber := Number.readNumber_positiveText hpos hrest
      have hspace := (digit_first hdigit).1
      rw [htext, List.cons_append] at hnumber
      rw [htext, List.cons_append, readValue, skipSpaces_cons _ rfl]
      simp [skipSpaces_cons _ hspace, hnumber, Number.double_neg]
    · rename_i hne hnonneg
      exact readValue_positive (lt_of_le_of_ne (not_lt.mp hnonneg) (Ne.symm hne)) hrest fuel

theorem length_le_flatMap_quoteChar (text : List Char) :
    text.length ≤ (text.flatMap quoteChar).length := by
  induction text with
  | nil => simp
  | cons c text ih =>
      have hone : 1 ≤ (quoteChar c).length := by
        unfold quoteChar
        split
        · simp
        · split
          · simp
          · split <;> simp
      rw [List.flatMap_cons, List.length_append, List.length_cons]
      omega

theorem reads_quoted (text : List Char) :
    Reads (quoted text) (some (.scalar (.string text))) := by
  intro rest fuel _ hfuel
  obtain ⟨fuel, rfl⟩ := Nat.exists_eq_succ_of_ne_zero (by omega : fuel ≠ 0)
  have hshort := length_le_flatMap_quoteChar text
  have hlength : text.length < fuel := by
    simp only [quoted, List.length_append, List.length_cons] at hfuel
    omega
  have hread := readQuoted_quoted text rest hlength
  have htext : quoted text ++ rest = '"' :: (text.flatMap quoteChar ++ '"' :: rest) := by
    simp [quoted]
  rw [htext, readValue, skipSpaces_cons _ rfl]
  simp [hread]

/-! ## Table constructors as they are read -/

inductive FieldReads : List Char → TableField Value → Prop where
  | positional {text : List Char} {value : Option Value} :
      Reads text value → FieldReads text (.positional value)
  | keyed {keyText text : List Char} {key : Scalar} {value : Option Value} :
      Reads keyText (some (.scalar key)) → Reads text value →
      FieldReads ('[' :: keyText ++ "] = ".toList ++ text) (.keyed key value)

def joined (texts : List (List Char)) : List Char :=
  texts.foldl (fun text item => text ++ (if 0 < text.length then ", ".toList else []) ++ item) []

theorem joined_cons {text : List Char} {texts : List (List Char)} (h : text ≠ [])
    (hrest : ∀ other ∈ texts, other ≠ []) :
    joined (text :: texts) =
      text ++ if texts = [] then [] else ", ".toList ++ joined texts := by
  have hgeneral : ∀ (texts : List (List Char)) (start : List Char), start ≠ [] →
      texts.foldl (fun text item => text ++
        (if 0 < text.length then ", ".toList else []) ++ item) start =
      start ++ texts.flatMap fun item => ", ".toList ++ item := by
    intro texts
    induction texts with
    | nil => simp
    | cons item texts ih =>
        intro start hstart
        have hpos : 0 < start.length := List.length_pos_iff.mpr hstart
        rw [List.foldl_cons, ih _ (by simp [hstart]), if_pos hpos, List.flatMap_cons]
        simp
  unfold joined
  rw [List.foldl_cons, List.length_nil, if_neg (by omega), List.nil_append, List.nil_append,
    hgeneral texts text h]
  cases texts with
  | nil => simp
  | cons item texts =>
      rw [if_neg (by simp), List.foldl_cons, List.length_nil, if_neg (by omega), List.nil_append,
        List.nil_append, hgeneral texts item (hrest item (by simp)), List.flatMap_cons]
      simp

theorem joined_eq_nil {texts : List (List Char)} (h : ∀ text ∈ texts, text ≠ []) :
    joined texts = [] ↔ texts = [] := by
  cases texts with
  | nil => simp [joined]
  | cons text texts =>
      simp only [List.forall_mem_cons] at h
      simp [joined_cons h.1 h.2, h.1]

theorem joined_append {first second : List (List Char)} (hfirst : ∀ text ∈ first, text ≠ [])
    (hsecond : ∀ text ∈ second, text ≠ []) :
    joined (first ++ second) = joined first ++
      (if 0 < (joined second).length ∧ 0 < (joined first).length then ", ".toList else []) ++
        joined second := by
  simp only [List.length_pos_iff, ne_eq, joined_eq_nil hfirst, joined_eq_nil hsecond]
  induction first with
  | nil => simp [joined]
  | cons text first ih =>
      simp only [List.forall_mem_cons] at hfirst
      have hall : ∀ other ∈ first ++ second, other ≠ [] := by
        intro other hother
        rcases List.mem_append.mp hother with hin | hin
        · exact hfirst.2 other hin
        · exact hsecond other hin
      rw [List.cons_append, joined_cons hfirst.1 hall, joined_cons hfirst.1 hfirst.2,
        ih hfirst.2]
      by_cases hone : first = []
      · by_cases htwo : second = []
        · simp [hone, htwo, joined]
        · simp [hone, htwo, joined]
      · by_cases htwo : second = []
        · simp [hone, htwo, joined]
        · simp [hone, htwo]

theorem reads_start {text : List Char} {value : Option Value} (h : Reads text value)
    {rest : List Char} (hrest : Number.Delimited rest) :
    ∃ c tail, skipSpaces (text ++ rest) = c :: tail ∧ c ≠ '}' ∧ c ≠ '[' := by
  have hread := h rest _ hrest (Nat.lt_succ_self _)
  rw [readValue] at hread
  cases hstart : skipSpaces (text ++ rest) with
  | nil => simp [hstart] at hread
  | cons c tail =>
      refine ⟨c, tail, rfl, ?_, ?_⟩
      all_goals
        rintro rfl
        rw [hstart] at hread
        revert hread
        simp [readWord, show Pattern.digit '}' = false from rfl,
          show Pattern.digit '[' = false from rfl, show Number.isName '}' = false from rfl,
          show Number.isName '[' = false from rfl]

theorem FieldReads.ne_nil {text : List Char} {field : TableField Value}
    (h : FieldReads text field) : text ≠ [] := by
  cases h with
  | positional h =>
      rintro rfl
      obtain ⟨c, tail, hstart, -⟩ := reads_start h delimited_nil
      simp [skipSpaces] at hstart
  | keyed _ _ => simp

theorem readValue_space (fuel : Nat) (text : List Char) :
    readValue fuel (' ' :: text) = readValue fuel text := by
  cases fuel with
  | zero => rfl
  | succ fuel => rw [readValue, readValue, skipSpaces_space]

theorem readFields_space (fuel : Nat) (text : List Char) :
    readFields fuel (' ' :: text) = readFields fuel text := by
  cases fuel with
  | zero => rfl
  | succ fuel => rw [readFields, readFields, skipSpaces_space, readValue_space]

theorem readFields_field {text rest : List Char} {field : TableField Value}
    (h : FieldReads text field) (hrest : Number.Delimited rest) {fuel : Nat}
    (hfuel : 2 * (text ++ rest).length < fuel) :
    readFields (fuel + 1) (text ++ rest) = readMore fuel field rest := by
  cases h with
  | positional h =>
      obtain ⟨c, tail, hstart, hclose, hopen⟩ := reads_start h hrest
      rw [readFields, hstart]
      simp [hclose, hopen, h rest fuel hrest hfuel]
  | @keyed keyText text key value hkey h =>
      have hbracket : Number.Delimited ("] = ".toList ++ (text ++ rest)) := by
        simp [Number.Delimited]
        decide
      simp only [List.length_append, List.length_cons] at hfuel
      have hkeyRead := hkey _ fuel hbracket (by simp only [List.length_append]; omega)
      have hvalueRead := h rest fuel hrest (by simp only [List.length_append]; omega)
      have htext : '[' :: keyText ++ "] = ".toList ++ text ++ rest =
          '[' :: (keyText ++ ("] = ".toList ++ (text ++ rest))) := by simp
      have hclose : skipSpaces ("] = ".toList ++ (text ++ rest)) =
          ']' :: (" = ".toList ++ (text ++ rest)) := skipSpaces_cons _ rfl
      have hequals : skipSpaces (" = ".toList ++ (text ++ rest)) = '=' :: ' ' :: (text ++ rest) :=
        (skipSpaces_space _).trans (skipSpaces_cons _ rfl)
      rw [htext, readFields, skipSpaces_cons _ rfl]
      simp only [Char.reduceEq, if_false, if_true, hkeyRead, asKey, hclose, hequals,
        Option.bind_some, Option.bind_eq_bind, readValue_space, hvalueRead]

theorem texts_ne_nil {texts : List (List Char)} {fields : List (TableField Value)}
    (h : List.Forall₂ FieldReads texts fields) : ∀ text ∈ texts, text ≠ [] := by
  induction h with
  | nil => simp
  | cons hfield _ ih => simpa using ⟨hfield.ne_nil, ih⟩

theorem readFields_joined {texts : List (List Char)} {fields : List (TableField Value)}
    (h : List.Forall₂ FieldReads texts fields) (rest : List Char) {fuel : Nat}
    (hfuel : 2 * (joined texts ++ " \x7d".toList ++ rest).length + 1 < fuel) :
    readFields fuel (joined texts ++ " \x7d".toList ++ rest) = some (fields, rest) := by
  induction h generalizing fuel with
  | nil =>
      obtain ⟨fuel, rfl⟩ := Nat.exists_eq_succ_of_ne_zero (by omega : fuel ≠ 0)
      have hclose : skipSpaces (joined [] ++ " \x7d".toList ++ rest) = '}' :: rest :=
        (skipSpaces_space _).trans (skipSpaces_cons _ rfl)
      rw [readFields, hclose]
      rfl
  | @cons text field texts fields hfield htexts ih =>
      obtain ⟨fuel, rfl⟩ : ∃ n, fuel = n + 2 := ⟨fuel - 2, by omega⟩
      have hpos : 0 < text.length := List.length_pos_iff.mpr hfield.ne_nil
      rw [joined_cons hfield.ne_nil (texts_ne_nil htexts)] at hfuel ⊢
      rw [List.append_assoc, List.append_assoc] at hfuel ⊢
      by_cases hlast : texts = []
      · obtain rfl : fields = [] := by
          subst hlast
          cases htexts
          rfl
        rw [if_pos hlast, List.nil_append] at hfuel ⊢
        rw [readFields_field hfield (by simp [Number.Delimited]; decide) (by omega)]
        have hclose : skipSpaces (" \x7d".toList ++ rest) = '}' :: rest :=
          (skipSpaces_space _).trans (skipSpaces_cons _ rfl)
        rw [readMore, hclose]
        rfl
      · have hcomma : ", ".toList ++ joined texts ++ (" \x7d".toList ++ rest) =
            ',' :: ' ' :: (joined texts ++ " \x7d".toList ++ rest) := by simp
        rw [if_neg hlast, hcomma] at hfuel ⊢
        simp only [List.length_append, List.length_cons] at hfuel
        rw [readFields_field hfield (by simp [Number.Delimited]; decide)
            (by simp only [List.length_append, List.length_cons]; omega),
          readMore, skipSpaces_cons _ rfl]
        have hlength : 2 * (joined texts ++ " \x7d".toList ++ rest).length + 1 < fuel := by
          simp only [List.length_append]
          omega
        have hrest := ih hlength
        simp only [true_or, if_true, readFields_space, hrest, Option.bind_eq_bind,
          Option.bind_some]

theorem reads_constructor {texts : List (List Char)} {fields : List (TableField Value)}
    (h : List.Forall₂ FieldReads texts fields) :
    Reads ("\x7b ".toList ++ joined texts ++ " \x7d".toList) (some (constructed fields)) := by
  intro rest fuel _ hfuel
  obtain ⟨fuel, rfl⟩ := Nat.exists_eq_succ_of_ne_zero (by omega : fuel ≠ 0)
  have htext : "\x7b ".toList ++ joined texts ++ " \x7d".toList ++ rest =
      '{' :: ' ' :: (joined texts ++ " \x7d".toList ++ rest) := by simp
  rw [htext] at hfuel ⊢
  simp only [List.length_append, List.length_cons] at hfuel
  have hlength : 2 * (joined texts ++ " \x7d".toList ++ rest).length + 1 < fuel := by
    simp only [List.length_append]
    omega
  have hfields := readFields_joined h rest hlength
  rw [readValue, skipSpaces_cons _ rfl]
  simp only [if_true, readFields_space, hfields, Option.bind_eq_bind, Option.bind_some]

theorem returned_eq {text : List Char} {value : Option Value} (h : Reads text value) :
    returned text = some value := by
  obtain ⟨c, tail, hstart, -⟩ := reads_start h delimited_nil
  have hread := h [] (2 * text.length + 1) delimited_nil (by simp)
  rw [List.append_nil] at hstart hread
  rw [returned, hstart, if_neg (by simp), hread]
  rfl

/-! ## Fields and the table they make -/

section Assembly

variable {α : Type}

@[simp] theorem lookup_store (key other : Scalar) (value : Option α)
    (entries : List (Scalar × α)) :
    (store key value entries).lookup other =
      if other = key then value else entries.lookup other := by
  have hfilter : (entries.filter (·.1 ≠ key)).lookup other =
      if other = key then none else entries.lookup other := by
    induction entries with
    | nil => simp
    | cons entry entries ih =>
        obtain ⟨k, v⟩ := entry
        by_cases hk : k = key
        · by_cases hother : other = key
          · simpa [hk, hother] using ih
          · have hne : (other == key) = false := by simpa using hother
            simpa [hk, hother, List.lookup_cons, hne] using ih
        · by_cases hother : other = k
          · simp [hk, hother]
          · have hne : (other == k) = false := by simpa using hother
            simpa [hk, List.lookup_cons, hne] using ih
  rw [store, List.lookup_append, hfilter]
  by_cases hother : other = key
  · cases value <;> simp [hother]
  · have hne : (other == key) = false := by simpa using hother
    cases value <;> simp [hother, List.lookup_cons, hne]

def assignments : Nat → List (TableField α) → List (Scalar × Option α)
  | _, [] => []
  | place, .positional value :: fields => (.number place, value) :: assignments (place + 1) fields
  | place, .keyed key value :: fields => (key, value) :: assignments place fields

theorem lookup_assemble {fields : List (TableField α)} {place : Nat}
    {entries : List (Scalar × α)} {key : Scalar} {value : Option α}
    (hsame : ∀ assignment ∈ assignments place fields,
      assignment.1 = key → assignment.2 = value)
    (hnone : key ∉ (assignments place fields).map (·.1) → entries.lookup key = value) :
    (assemble place fields entries).lookup key = value := by
  induction fields generalizing place entries with
  | nil => exact hnone (by simp [assignments])
  | cons field fields ih =>
      cases field with
      | positional found =>
          rw [assemble]
          refine ih (fun assignment hin => hsame assignment (by simp [assignments, hin])) ?_
          intro hout
          rw [lookup_store]
          split
          · rename_i hkey
            exact hsame (.number place, found) (by simp [assignments]) hkey.symm
          · rename_i hkey
            exact hnone (by simpa [assignments, hkey] using hout)
      | keyed name found =>
          rw [assemble]
          refine ih (fun assignment hin => hsame assignment (by simp [assignments, hin])) ?_
          intro hout
          rw [lookup_store]
          split
          · rename_i hkey
            exact hsame (name, found) (by simp [assignments]) hkey.symm
          · rename_i hkey
            exact hnone (by simpa [assignments, hkey] using hout)

end Assembly

/-! ## Lists of entries -/

section Entries

variable {α : Type} {entries : List (Scalar × α)}

theorem lookup_eq_some_of_mem {key : Scalar} {value : α}
    (hnodup : (entries.map (·.1)).Nodup) (hin : (key, value) ∈ entries) :
    entries.lookup key = some value := by
  induction entries with
  | nil => simp at hin
  | cons entry entries ih =>
      rw [List.map_cons, List.nodup_cons] at hnodup
      rcases List.mem_cons.mp hin with rfl | hrest
      · simp
      · have hne : (key == entry.1) = false := by
          simp only [beq_eq_false_iff_ne]
          rintro rfl
          exact hnodup.1 (List.mem_map.mpr ⟨_, hrest, rfl⟩)
        rw [List.lookup_cons, hne]
        exact ih hnodup.2 hrest

theorem mem_of_lookup {key : Scalar} {value : α} (h : entries.lookup key = some value) :
    (key, value) ∈ entries := by
  induction entries with
  | nil => simp at h
  | cons entry entries ih =>
      rw [List.lookup_cons] at h
      split at h
      · rename_i hkey
        obtain rfl : key = entry.1 := by simpa using hkey
        obtain rfl : entry.2 = value := by simpa using h
        simp
      · exact List.mem_cons_of_mem _ (ih h)

theorem lookup_map {α β : Type} (f : α → β) (entries : List (Scalar × α)) (key : Scalar) :
    (entries.map fun entry => (entry.1, f entry.2)).lookup key =
      (entries.lookup key).map f := by
  induction entries with
  | nil => rfl
  | cons entry entries ih =>
      rw [List.map_cons, List.lookup_cons, List.lookup_cons, ih]
      split <;> rfl

end Entries

end OpenSan.Foundation
