import OpenSan.Foundation.Pattern

/-!
# Records of fields

Patterns for lines whose fields stand between colons.  A field is a run of
characters of one class, captured or not; no class accepts the colon, so there
is one way only to match a line.
-/

namespace OpenSan.Foundation.Pattern

structure Field where
  captured : Bool
  accepts : Char → Bool
  /-- `+` rather than `*` -/
  nonempty : Bool

def Field.items (field : Field) : List Item :=
  let run := if field.nonempty then plus field.accepts else [.star field.accepts]
  if field.captured then capture run else run

def fields : List Field → List Item
  | [] => [.finish]
  | [field] => field.items ++ [.finish]
  | field :: rest => field.items ++ .one (· == ':') :: fields rest

structure Field.Fits (field : Field) (text : List Char) : Prop where
  accepted : ∀ c ∈ text, field.accepts c = true
  nonempty : field.nonempty = true → text ≠ []

def capturedTexts : List (Field × List Char) → List (List Char)
  | [] => []
  | (field, text) :: rest =>
      if field.captured then text :: capturedTexts rest else capturedTexts rest

theorem matchHere_field {field : Field} {text rest : List Char} {items : List Item}
    {closed : List (List Char)} {result : List (List Char)} (hfits : field.Fits text)
    (hstop : ∀ c ∈ rest.head?, field.accepts c = false)
    (hnext : matchHere items ⟨closed ++ if field.captured then [text] else [], none⟩ rest =
      some result) :
    matchHere (field.items ++ items) ⟨closed, none⟩ (text ++ rest) = some result := by
  have hrun (captures : Captures) (items : List Item)
      (hitems : matchHere items (captures.takeAll text) rest = some result) :
      matchHere ((if field.nonempty then plus field.accepts else [.star field.accepts]) ++
        items) captures (text ++ rest) = some result := by
    by_cases hnonempty : field.nonempty = true
    · rw [if_pos hnonempty]
      exact matchHere_plus_of_stop (hfits.nonempty hnonempty) hfits.accepted hstop hitems
    · rw [if_neg hnonempty]
      exact matchHere_star_of_stop hfits.accepted hstop hitems
  unfold Field.items
  by_cases hcaptured : field.captured = true
  · rw [if_pos hcaptured] at hnext ⊢
    simp only [capture, List.cons_append, List.append_assoc, matchHere]
    apply hrun
    simpa [matchHere, Captures.open, Captures.close] using hnext
  · rw [if_neg hcaptured] at hnext ⊢
    apply hrun
    simpa using hnext

theorem matchHere_fields {entries : List (Field × List Char)} {closed : List (List Char)}
    (hfits : ∀ entry ∈ entries, entry.1.Fits entry.2)
    (hcolon : ∀ entry ∈ entries, entry.1.accepts ':' = false) :
    matchHere (fields (entries.map (·.1))) ⟨closed, none⟩
      (List.intercalate [':'] (entries.map (·.2))) =
        some (closed ++ capturedTexts entries) := by
  induction entries generalizing closed with
  | nil => simp [fields, matchHere, capturedTexts]
  | cons entry entries ih =>
      obtain ⟨field, text⟩ := entry
      have hhere : field.Fits text := hfits (field, text) (by simp)
      have hrest := @ih (closed ++ if field.captured then [text] else [])
        (fun other hother => hfits other (by simp [hother]))
        (fun other hother => hcolon other (by simp [hother]))
      have hcaptures : closed ++ capturedTexts ((field, text) :: entries) =
          closed ++ (if field.captured then [text] else []) ++ capturedTexts entries := by
        cases hcaptured : field.captured <;> simp [capturedTexts, hcaptured]
      rw [hcaptures]
      cases entries with
      | nil =>
          have hlast : matchHere (field.items ++ [.finish]) ⟨closed, none⟩ (text ++ []) =
              some (closed ++ if field.captured then [text] else []) :=
            matchHere_field hhere (by simp) (by simp [matchHere])
          simpa [fields, capturedTexts] using hlast
      | cons next entries =>
          have hstop : ∀ c ∈ (':' :: List.intercalate [':']
              ((next :: entries).map (·.2))).head?, field.accepts c = false := by
            intro c hc
            obtain rfl : ':' = c := by simpa using hc
            exact hcolon (field, text) (by simp)
          have hline : matchHere (field.items ++ .one (· == ':') ::
              fields ((next :: entries).map (·.1))) ⟨closed, none⟩
              (text ++ ':' :: List.intercalate [':'] ((next :: entries).map (·.2))) =
                some (closed ++ (if field.captured then [text] else []) ++
                  capturedTexts (next :: entries)) :=
            matchHere_field hhere hstop (by simpa [matchHere, Captures.take] using hrest)
          simpa [fields, List.intercalate, List.append_assoc] using hline

end OpenSan.Foundation.Pattern
