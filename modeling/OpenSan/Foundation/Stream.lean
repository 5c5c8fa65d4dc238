import Mathlib.Data.List.Basic
import OpenSan.Foundation.Lua

/-!
# Records that arrive in pieces

A text is a sequence of records, each ended by a separator.  It arrives in pieces
that are cut anywhere, and a loop takes the complete records out of what has arrived
and keeps the rest.  Whatever the pieces are, the records of the whole text have
then been taken, one after the other.
-/

namespace OpenSan.Foundation

variable {ε α σ : Type} (separates : α → Bool) (take : σ → List α → Except ε σ)

/-- The records of a text, one after the other; the last needs no separator. -/
def takeRecords (text : List α) (state : σ) : Except ε σ :=
  (text.splitOnP separates).foldlM take state

def firstRecord (data : List α) : List α := data.takeWhile fun c => !separates c

def takeComplete : Nat → List α → σ → Except ε (σ × List α)
  | 0, data, state => .ok (state, data)
  | fuel + 1, data, state =>
      if data.any separates then do
        let state ← take state (firstRecord separates data)
        takeComplete fuel (data.drop ((firstRecord separates data).length + 1)) state
      else .ok (state, data)

variable {separates take}

theorem exists_record {data : List α} (h : data.any separates = true) :
    ∃ separator rest, separates separator = true ∧
      data = firstRecord separates data ++ separator :: rest ∧
      (∀ c ∈ firstRecord separates data, separates c = false) ∧
      data.drop ((firstRecord separates data).length + 1) = rest := by
  induction data with
  | nil => simp at h
  | cons c data ih =>
      by_cases hc : separates c = true
      · exact ⟨c, data, hc, by simp [firstRecord, hc], by simp [firstRecord, hc],
          by simp [firstRecord, hc]⟩
      · have hrest : data.any separates = true := by simpa [hc] using h
        obtain ⟨separator, rest, hseparator, hdata, hrecord, hdrop⟩ := ih hrest
        refine ⟨separator, rest, hseparator, ?_, ?_, ?_⟩
        · simpa [firstRecord, hc] using hdata
        · simpa [firstRecord, hc] using hrecord
        · simpa [firstRecord, hc] using hdrop

theorem takeRecords_cons {record rest : List α} {separator : α} (state : σ)
    (hrecord : ∀ c ∈ record, separates c = false) (hseparator : separates separator = true) :
    takeRecords separates take (record ++ separator :: rest) state =
      take state record >>= takeRecords separates take rest := by
  unfold takeRecords
  rw [List.splitOnP_append_cons record rest hseparator, List.splitOnP_eq_singleton hrecord,
    List.singleton_append, List.foldlM_cons]

theorem takeComplete_append {fuel : Nat} {data : List α} (hfuel : data.length ≤ fuel)
    (state : σ) (future : List α) :
    takeRecords separates take (data ++ future) state =
      takeComplete separates take fuel data state >>= fun result =>
        takeRecords separates take (result.2 ++ future) result.1 := by
  induction fuel generalizing data state with
  | zero => rfl
  | succ fuel ih =>
      unfold takeComplete
      by_cases hany : data.any separates = true
      · obtain ⟨separator, rest, hseparator, hdata, hrecord, hdrop⟩ := exists_record hany
        have hlength := congrArg List.length hdata
        rw [List.length_append, List.length_cons] at hlength
        conv_lhs => rw [hdata]
        rw [if_pos hany, hdrop, List.append_assoc, List.cons_append,
          takeRecords_cons state hrecord hseparator]
        cases take state (firstRecord separates data) with
        | error e => rfl
        | ok next => exact ih (by omega) next
      · rw [if_neg hany]
        rfl

theorem takeComplete_rest {fuel : Nat} {data : List α} (hfuel : data.length ≤ fuel)
    {state state' : σ} {rest : List α}
    (h : takeComplete separates take fuel data state = .ok (state', rest)) :
    rest <:+ data ∧ rest.any separates = false := by
  induction fuel generalizing data state with
  | zero =>
      obtain rfl : data = [] := List.eq_nil_of_length_eq_zero (by omega)
      obtain ⟨-, rfl⟩ : state = state' ∧ [] = rest := by simpa [takeComplete] using h
      simp
  | succ fuel ih =>
      unfold takeComplete at h
      by_cases hany : data.any separates = true
      · obtain ⟨separator, after, hseparator, hdata, -, hdrop⟩ := exists_record hany
        have hlength := congrArg List.length hdata
        rw [List.length_append, List.length_cons] at hlength
        rw [if_pos hany, hdrop] at h
        obtain ⟨next, -, hnext⟩ := bind_eq_ok.mp h
        obtain ⟨hsuffix, hnone⟩ := ih (by omega) hnext
        refine ⟨hsuffix.trans ?_, hnone⟩
        rw [hdata]
        exact (List.suffix_cons separator after).trans (List.suffix_append _ _)
      · rw [if_neg hany] at h
        obtain ⟨-, rfl⟩ : state = state' ∧ data = rest := by simpa using h
        exact ⟨List.suffix_rfl, by simpa using hany⟩

theorem takeComplete_ended (hempty : ∀ state, take state [] = .ok state) {fuel : Nat}
    {data : List α} {separator : α} (hfuel : (data ++ [separator]).length ≤ fuel)
    (hseparator : separates separator = true) (state : σ) :
    takeComplete separates take fuel (data ++ [separator]) state =
      (takeRecords separates take data state).map fun state => (state, []) := by
  have hend : takeRecords separates take (data ++ [separator] ++ []) state =
      takeRecords separates take data state := by
    unfold takeRecords
    rw [List.append_nil, List.splitOnP_append_cons data [] hseparator, List.splitOnP_nil,
      List.foldlM_append]
    cases (data.splitOnP separates).foldlM take state with
    | error e => rfl
    | ok next => simp [bind, Except.bind, hempty, pure, Except.pure]
  have hall : takeRecords separates take (data ++ [separator] ++ []) state =
      takeComplete separates take fuel (data ++ [separator]) state >>= fun result =>
        takeRecords separates take (result.2 ++ []) result.1 :=
    takeComplete_append hfuel state []
  rw [hend] at hall
  rw [hall]
  cases hrun : takeComplete separates take fuel (data ++ [separator]) state with
  | error e => rfl
  | ok result =>
      obtain ⟨next, rest⟩ := result
      obtain ⟨hsuffix, hnone⟩ := takeComplete_rest hfuel hrun
      obtain rfl : rest = [] := by
        by_contra hne
        have hlast : rest.getLast hne = separator := by
          have hsame := hsuffix.getLast hne
          simpa using hsame
        have hin := List.getLast_mem hne
        rw [hlast] at hin
        have hfalse := List.any_eq_false.mp hnone separator hin
        exact hfalse hseparator
      simp [bind, Except.bind, takeRecords, Except.map, hempty, pure, Except.pure]

/-! ## Pieces -/

variable (separates take)

/-- The second part is what waits for a separator, `none` before the first piece.  The
first piece is only kept. -/
def takePiece (state : σ × Option (List α)) (piece : List α) :
    Except ε (σ × Option (List α)) :=
  match state.2 with
  | none => .ok (state.1, some piece)
  | some waiting => do
      let (next, rest) ← takeComplete separates take (waiting ++ piece).length
        (waiting ++ piece) state.1
      .ok (next, some rest)

def takeLast (separator : α) (state : σ × Option (List α)) : Except ε (σ × Option (List α)) :=
  match state.2 with
  | none => .ok state
  | some _ => takePiece separates take state [separator]

variable {separates take}

/-- However the text is cut, its records are taken one after the other. -/
theorem takePieces_eq (hempty : ∀ state, take state [] = .ok state) {separator : α}
    (hseparator : separates separator = true) (pieces : List (List α)) (state : σ) :
    (pieces.foldlM (takePiece separates take) (state, none) >>= takeLast separates take separator
      |>.map (·.1)) = takeRecords separates take pieces.flatten state := by
  have hwaiting : ∀ pieces (waiting : List α) (state : σ),
      (List.foldlM (takePiece separates take) (state, some waiting) pieces >>=
        takeLast separates take separator |>.map (·.1)) =
      takeRecords separates take (waiting ++ List.flatten pieces) state := by
    intro pieces
    induction pieces with
    | nil =>
        intro waiting state
        have hended : takeComplete separates take (waiting ++ [separator]).length
            (waiting ++ [separator]) state =
              (takeRecords separates take waiting state).map fun state => (state, []) :=
          takeComplete_ended hempty le_rfl hseparator state
        simp only [List.foldlM_nil, List.flatten_nil, List.append_nil]
        change (takePiece separates take (state, some waiting) [separator]).map (·.1) = _
        unfold takePiece
        dsimp only
        rw [hended]
        cases takeRecords separates take waiting state <;> rfl
    | cons piece pieces ih =>
        intro waiting state
        have hstep : takeRecords separates take (waiting ++ piece ++ pieces.flatten) state =
            takeComplete separates take (waiting ++ piece).length (waiting ++ piece) state >>=
              fun result => takeRecords separates take (result.2 ++ pieces.flatten) result.1 :=
          takeComplete_append le_rfl state pieces.flatten
        rw [List.flatten_cons, ← List.append_assoc, hstep, List.foldlM_cons, takePiece]
        dsimp only
        cases takeComplete separates take (waiting ++ piece).length (waiting ++ piece) state with
        | error e => rfl
        | ok result => exact ih result.2 result.1
  cases pieces with
  | nil => simp [takeRecords, takeLast, hempty, bind, Except.bind, pure, Except.pure, Except.map]
  | cons piece pieces =>
      rw [List.flatten_cons, List.foldlM_cons]
      exact hwaiting pieces piece state

end OpenSan.Foundation
