import OpenSan.Foundation.Columns
import OpenSan.Foundation.Outline

/-!
# Reading line-structured text

The blocks of a configuration file.  A line that ends with an opening brace
opens a block, a closing brace on its own closes the innermost one, and blank
space in front of a line does not count.  The reader keeps the items of the
innermost open block and a stack of the blocks around it.
-/

namespace OpenSan.Foundation

inductive LineKind where
  | empty
  | text (content : List Char)
  | opens (header : List (List Char))
  | closes
  deriving DecidableEq, Repr

def lineKind (line : List Char) : LineKind :=
  let content := line.dropWhile blank
  if content = [] then .empty
  else if content = ['\x7d'] then .closes
  else if content.getLast? = some '\x7b' then .opens (splitBy ' ' content.dropLast)
  else .text content

inductive Block where
  | line (content : List Char)
  | block (header : List (List Char)) (body : List Block)

structure Reader where
  items : List Block
  around : List (List (List Char) × List Block)

namespace Reader

def start : Reader := ⟨[], []⟩

def add (reader : Reader) (items : List Block) : Reader :=
  { reader with items := reader.items ++ items }

@[simp] theorem add_nil (reader : Reader) : reader.add [] = reader := by
  simp [add]

@[simp] theorem add_add (reader : Reader) (items items' : List Block) :
    (reader.add items).add items' = reader.add (items ++ items') := by
  simp [add]

def read (reader : Reader) (line : List Char) : Option Reader :=
  match lineKind line, reader.around with
  | .empty, _ => some reader
  | .text content, _ => some (reader.add [.line content])
  | .opens header, around => some ⟨[], (header, reader.items) :: around⟩
  | .closes, [] => none
  | .closes, (header, items) :: around => some ⟨items ++ [.block header reader.items], around⟩

def readAll (reader : Reader) (text : String) : Option Reader :=
  (lines text.toList).foldlM read reader

end Reader

/-- The blocks of a text in which every block is closed. -/
def readBlocks (text : String) : Option (List Block) :=
  match Reader.start.readAll text with
  | some ⟨items, []⟩ => some items
  | _ => none

/-! ## Texts put together -/

/-- In front of any text, `text` contributes the items `items`. -/
def Contributes (text : String) (items : List Block) : Prop :=
  ∀ (reader : Reader) (rest : String),
    reader.readAll (text ++ rest) = (reader.add items).readAll rest

theorem Contributes.empty : Contributes "" [] := by
  intro reader rest
  simp

theorem Contributes.append {first second : String} {items items' : List Block}
    (h : Contributes first items) (h' : Contributes second items') :
    Contributes (first ++ second) (items ++ items') := by
  intro reader rest
  rw [String.append_assoc, h, h', Reader.add_add]

theorem Contributes.join {α : Type} {entries : List α} {text : α → String}
    {item : α → Block} (h : ∀ entry ∈ entries, Contributes (text entry) [item entry]) :
    Contributes (String.join (entries.map text)) (entries.map item) := by
  induction entries with
  | nil => exact .empty
  | cons entry entries ih =>
      rw [List.map_cons, String.join_cons, List.map_cons]
      exact (h entry (by simp)).append (ih fun other hother => h other (by simp [hother]))

theorem Contributes.readBlocks {text : String} {items : List Block} (h : Contributes text items) :
    readBlocks text = some items := by
  have hall := h .start ""
  rw [String.append_empty] at hall
  rw [Foundation.readBlocks, hall]
  rfl

theorem readAll_line {text : String} {line : List Char} (htext : text.toList = line ++ ['\n'])
    (hline : '\n' ∉ line) (reader : Reader) (rest : String) :
    reader.readAll (text ++ rest) = (reader.read line).bind (·.readAll rest) := by
  have hlines : lines (text ++ rest).toList = line :: lines rest.toList := by
    rw [String.toList_append, htext, List.append_assoc, List.singleton_append,
      lines_append_newline, lines_of_notMem hline, List.singleton_append]
  rw [Reader.readAll, hlines, List.foldlM_cons]
  rfl

theorem contributes_line {text : String} {line content : List Char}
    (htext : text.toList = line ++ ['\n']) (hline : '\n' ∉ line)
    (hkind : lineKind line = .text content) : Contributes text [.line content] := by
  intro reader rest
  rw [readAll_line htext hline, Reader.read, hkind]
  rfl

theorem contributes_block {opening body closing : String} {first last : List Char}
    {header : List (List Char)} {items : List Block}
    (hopening : opening.toList = first ++ ['\n']) (hfirst : '\n' ∉ first)
    (hheader : lineKind first = .opens header) (hbody : Contributes body items)
    (hclosing : closing.toList = last ++ ['\n']) (hlast : '\n' ∉ last)
    (hcloses : lineKind last = .closes) :
    Contributes (opening ++ (body ++ closing)) [.block header items] := by
  intro reader rest
  have hread : reader.read first = some ⟨[], (header, reader.items) :: reader.around⟩ := by
    rw [Reader.read, hheader]
  rw [String.append_assoc, readAll_line hopening hfirst, hread, Option.bind_some,
    String.append_assoc, hbody, readAll_line hclosing hlast, Reader.read, hcloses]
  simp [Reader.add]

/-! ## Lines -/

def OneLine (content : List Char) : Prop :=
  '\n' ∉ content ∧ content.getLast? ≠ some '\x7b'

instance (content : List Char) : Decidable (OneLine content) :=
  inferInstanceAs (Decidable (_ ∧ _))

theorem OneLine.append {first second : List Char} (h : OneLine first) (h' : OneLine second) :
    OneLine (first ++ second) := by
  refine ⟨fun hmem => (List.mem_append.mp hmem).elim h.1 h'.1, ?_⟩
  rw [List.getLast?_append]
  cases hlast : second.getLast? with
  | none => exact h.2
  | some c =>
      rw [← hlast]
      simpa [hlast] using h'.2

def startsLine : List Char → Bool
  | [] => false
  | c :: _ => !blank c && c != '\x7d'

theorem dropWhile_indent {indent content : List Char} (hindent : indent.all blank = true)
    (hstart : startsLine content = true) :
    (indent ++ content).dropWhile blank = content ∧ content ≠ [] ∧ content ≠ ['\x7d'] := by
  rw [List.dropWhile_append_of_pos (List.all_eq_true.mp hindent)]
  cases content with
  | nil => cases hstart
  | cons c rest =>
      simp only [startsLine, Bool.and_eq_true, Bool.not_eq_true', bne_iff_ne] at hstart
      refine ⟨List.dropWhile_cons_of_neg (by simp [hstart.1]), List.cons_ne_nil c rest, ?_⟩
      exact fun h => hstart.2 (List.cons.inj h).1

theorem newline_notMem_indent {indent : List Char} (hindent : indent.all blank = true) :
    '\n' ∉ indent := fun hmem =>
  absurd (List.all_eq_true.mp hindent _ hmem) (by decide)

theorem lineKind_text {indent content : List Char} (hindent : indent.all blank = true)
    (hstart : startsLine content = true) (hline : OneLine content) :
    lineKind (indent ++ content) = .text content := by
  obtain ⟨hdrop, hempty, hcloses⟩ := dropWhile_indent hindent hstart
  simp only [lineKind, hdrop]
  rw [if_neg hempty, if_neg hcloses, if_neg hline.2]

theorem contributes_content {text : String} (indent : List Char) {content : List Char}
    (hindent : indent.all blank = true) (hstart : startsLine content = true)
    (hline : OneLine content) (htext : text.toList = indent ++ content ++ ['\n']) :
    Contributes text [.line content] := by
  refine contributes_line htext ?_ (lineKind_text hindent hstart hline)
  rw [List.mem_append, not_or]
  exact ⟨newline_notMem_indent hindent, hline.1⟩

def header (words : List (List Char)) : List Char :=
  words.flatMap (· ++ [' ']) ++ ['\x7b']

theorem splitBy_header {words : List (List Char)} (h : ∀ word ∈ words, IsWord ' ' word) :
    splitBy ' ' (header words).dropLast = words := by
  rw [header, List.dropLast_concat]
  refine splitBy_columns ?_ h
  clear h
  induction words with
  | nil => exact .nil
  | cons word words ih =>
      rw [List.flatMap_cons, List.append_assoc]
      exact .word word ih

theorem startsLine_header {first : List Char} (words : List (List Char))
    (h : startsLine first = true) : startsLine (header (first :: words)) = true := by
  cases first with
  | nil => cases h
  | cons c first => exact h

theorem lineKind_header {indent first : List Char} {words : List (List Char)}
    (hindent : indent.all blank = true) (hstart : startsLine first = true)
    (hwords : ∀ word ∈ first :: words, IsWord ' ' word) :
    lineKind (indent ++ header (first :: words)) = .opens (first :: words) := by
  obtain ⟨hdrop, hempty, hcloses⟩ :=
    dropWhile_indent hindent (startsLine_header words hstart)
  have hlast : (header (first :: words)).getLast? = some '\x7b' := by
    rw [header, List.getLast?_concat]
  simp only [lineKind, hdrop]
  rw [if_neg hempty, if_neg hcloses, if_pos hlast, splitBy_header hwords]

def Plain (name : List Char) : Prop := IsWord ' ' name ∧ '\n' ∉ name

instance (name : List Char) : Decidable (Plain name) :=
  inferInstanceAs (Decidable (_ ∧ _))

theorem Plain.append {first second : List Char} (h : Plain first) (h' : Plain second) :
    Plain (first ++ second) := by
  obtain ⟨⟨hsome, hspace⟩, hnewline⟩ := h
  obtain ⟨⟨-, hspace'⟩, hnewline'⟩ := h'
  simp [Plain, IsWord, hsome, hspace, hspace', hnewline, hnewline']

theorem newline_notMem_header {words : List (List Char)} (h : ∀ word ∈ words, Plain word) :
    '\n' ∉ header words := by
  intro hmem
  rcases List.mem_append.mp hmem with hin | hlast
  · obtain ⟨word, hword, hc⟩ := List.mem_flatMap.mp hin
    rcases List.mem_append.mp hc with hc | hc
    · exact (h word hword).2 hc
    · exact absurd hc (by decide)
  · exact absurd hlast (by decide)

theorem lineKind_closing {indent : List Char} (hindent : indent.all blank = true) :
    lineKind (indent ++ ['\x7d']) = .closes := by
  rw [lineKind, List.dropWhile_append_of_pos (List.all_eq_true.mp hindent)]
  rfl

theorem contributes_braces {opening body closing : String} (indent : List Char)
    {first : List Char} {words : List (List Char)} {items : List Block}
    (hindent : indent.all blank = true) (hstart : startsLine first = true)
    (hwords : ∀ word ∈ first :: words, Plain word)
    (hopening : opening.toList = indent ++ header (first :: words) ++ ['\n'])
    (hbody : Contributes body items)
    (hclosing : closing.toList = indent ++ ['\x7d'] ++ ['\n']) :
    Contributes (opening ++ (body ++ closing)) [.block (first :: words) items] := by
  have hnewline := newline_notMem_indent hindent
  refine contributes_block hopening ?_
    (lineKind_header hindent hstart fun word hword => (hwords word hword).1) hbody
    hclosing ?_ (lineKind_closing hindent)
  · rw [List.mem_append, not_or]
    exact ⟨hnewline, newline_notMem_header hwords⟩
  · rw [List.mem_append, not_or]
    exact ⟨hnewline, by decide⟩

/-! ## What is read -/

theorem notMem_lines {text line : List Char} (h : line ∈ lines text) : '\n' ∉ line := by
  induction text generalizing line with
  | nil =>
      obtain rfl : line = [] := by simpa [lines] using h
      simp
  | cons c text ih =>
      rw [lines] at h
      split at h
      · rcases List.mem_cons.mp h with rfl | hrest
        · simp
        · exact ih hrest
      · rename_i hc
        cases hlines : lines text with
        | nil => exact absurd hlines (lines_ne_nil text)
        | cons first later =>
            rw [hlines] at h
            rcases List.mem_cons.mp h with rfl | hlater
            · have hfirst : '\n' ∉ first := ih (by simp [hlines])
              simp [hfirst, Ne.symm hc]
            · exact ih (by simp [hlines, hlater])

inductive Clean : Block → Prop
  | line {content : List Char} : OneLine content → Clean (.line content)
  | block (header : List (List Char)) {body : List Block} :
      (∀ item ∈ body, Clean item) → Clean (.block header body)

theorem lineKind_eq_text {line content : List Char} (hline : '\n' ∉ line)
    (h : lineKind line = .text content) : OneLine content := by
  simp only [lineKind] at h
  split at h
  · cases h
  · split at h
    · cases h
    · split at h
      · cases h
      · rename_i hlast
        obtain rfl := LineKind.text.inj h
        exact ⟨fun hmem => hline ((List.dropWhile_sublist _).mem hmem), hlast⟩

def Reader.AllClean (reader : Reader) : Prop :=
  (∀ item ∈ reader.items, Clean item) ∧
    ∀ entry ∈ reader.around, ∀ item ∈ entry.2, Clean item

theorem Reader.read_clean {reader next : Reader} {line : List Char} (hclean : reader.AllClean)
    (hline : '\n' ∉ line) (h : reader.read line = some next) : next.AllClean := by
  obtain ⟨hitems, haround⟩ := hclean
  unfold Reader.read at h
  split at h
  · obtain rfl := Option.some.inj h
    exact ⟨hitems, haround⟩
  · rename_i content hkind
    obtain rfl := Option.some.inj h
    refine ⟨fun item hitem => ?_, haround⟩
    rcases List.mem_append.mp hitem with hold | hnew
    · exact hitems item hold
    · obtain rfl := List.mem_singleton.mp hnew
      exact .line (lineKind_eq_text hline hkind)
  · obtain rfl := Option.some.inj h
    exact ⟨by simp, List.forall_mem_cons.mpr ⟨hitems, haround⟩⟩
  · cases h
  · rename_i header items around _ hstack
    obtain rfl := Option.some.inj h
    rw [hstack, List.forall_mem_cons] at haround
    refine ⟨fun item hitem => ?_, haround.2⟩
    rcases List.mem_append.mp hitem with hold | hnew
    · exact haround.1 item hold
    · obtain rfl := List.mem_singleton.mp hnew
      exact .block header hitems

theorem foldlM_read_clean {texts : List (List Char)} {reader next : Reader}
    (hclean : reader.AllClean) (htexts : ∀ line ∈ texts, '\n' ∉ line)
    (h : texts.foldlM Reader.read reader = some next) : next.AllClean := by
  induction texts generalizing reader with
  | nil =>
      obtain rfl := Option.some.inj h
      exact hclean
  | cons line texts ih =>
      rw [List.foldlM_cons] at h
      obtain ⟨middle, hread, hrest⟩ := Option.bind_eq_some_iff.mp h
      exact ih (Reader.read_clean hclean (htexts line (by simp)) hread)
        (fun other hother => htexts other (by simp [hother])) hrest

theorem readBlocks_clean {text : String} {items : List Block}
    (h : readBlocks text = some items) : ∀ item ∈ items, Clean item := by
  unfold readBlocks at h
  split at h
  · rename_i read hall
    obtain rfl := Option.some.inj h
    have hstart : Reader.start.AllClean := by simp [Reader.AllClean, Reader.start]
    have hclean := foldlM_read_clean hstart (fun line hline => notMem_lines hline) hall
    exact hclean.1
  · cases h

end OpenSan.Foundation
