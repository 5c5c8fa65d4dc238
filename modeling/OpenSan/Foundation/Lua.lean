import Mathlib.Data.List.AList
import Mathlib.Data.List.Nodup
import Mathlib.Data.List.Pairwise

/-!
# Tables, traversal order and errors of a Lua script

A Lua table is a finite map, here an association list with distinct keys.
`pairs` visits the entries of a table in an order the language leaves open;
`Order` is such a choice, and every statement quantified over an `Order` holds
for whatever order the interpreter takes.
-/

namespace OpenSan.Foundation

/-- What stops a script: a failed `assert`, a call of `error`, the use of
`nil` or of a table where another value is needed. -/
inductive Error where
  | assertion (message : String)
  | failure (message : String)
  | nilValue (what : String)
  | wrongType (what : String)
  deriving DecidableEq, Repr

def Error.text : Error → String
  | .assertion message | .failure message => message
  | .nilValue what => "attempt to use " ++ what ++ " (a nil value)"
  | .wrongType what => "attempt to use " ++ what ++ " (a table value)"

def nonNil {α : Type} (what : String) : Option α → Except Error α
  | none => .error (.nilValue what)
  | some value => .ok value

theorem nonNil_eq_ok {α : Type} {what : String} {found : Option α} {value : α}
    (h : nonNil what found = .ok value) : found = some value := by
  cases found with
  | none => cases h
  | some other => simpa [nonNil] using h

theorem ok_bind {ε α β : Type} (value : α) (next : α → Except ε β) :
    (Except.ok value >>= next) = next value := rfl

theorem bind_eq_ok {ε α β : Type} {first : Except ε α} {next : α → Except ε β}
    {result : β} :
    (first >>= next) = .ok result ↔
      ∃ value, first = .ok value ∧ next value = .ok result := by
  cases first with
  | error e => simp [bind, Except.bind]
  | ok value => simp [bind, Except.bind]

/-! ## Loops that may raise -/

section Loops

variable {ε α β : Type}

theorem mapM_eq_ok {f : α → Except ε β} {items : List α} {results : List β}
    (h : items.mapM f = .ok results) :
    (∀ item ∈ items, ∃ result ∈ results, f item = .ok result) ∧
      ∀ result ∈ results, ∃ item ∈ items, f item = .ok result := by
  induction items generalizing results with
  | nil =>
      obtain rfl : [] = results := Except.ok.inj h
      simp
  | cons item items ih =>
      rw [List.mapM_cons, bind_eq_ok] at h
      obtain ⟨result, hitem, h⟩ := h
      obtain ⟨rest, hrest, h⟩ := bind_eq_ok.mp h
      obtain rfl : result :: rest = results := Except.ok.inj h
      obtain ⟨hleft, hright⟩ := ih hrest
      constructor
      · intro other hother
        rcases List.mem_cons.mp hother with rfl | hin
        · exact ⟨result, by simp, hitem⟩
        · obtain ⟨found, hfound, hrun⟩ := hleft other hin
          exact ⟨found, by simp [hfound], hrun⟩
      · intro other hother
        rcases List.mem_cons.mp hother with rfl | hin
        · exact ⟨item, by simp, hitem⟩
        · obtain ⟨found, hfound, hrun⟩ := hright other hin
          exact ⟨found, by simp [hfound], hrun⟩

theorem mapM_map_eq {γ : Type} {f : α → Except ε β} {items : List α}
    {results : List β} (key : β → γ) (key' : α → γ)
    (hkey : ∀ item result, f item = .ok result → key result = key' item)
    (h : items.mapM f = .ok results) : results.map key = items.map key' := by
  induction items generalizing results with
  | nil =>
      obtain rfl : [] = results := Except.ok.inj h
      rfl
  | cons item items ih =>
      rw [List.mapM_cons, bind_eq_ok] at h
      obtain ⟨result, hitem, h⟩ := h
      obtain ⟨rest, hrest, h⟩ := bind_eq_ok.mp h
      obtain rfl : result :: rest = results := Except.ok.inj h
      rw [List.map_cons, List.map_cons, hkey item result hitem, ih hrest]

theorem mapM_ok {f : α → Except ε β} {items : List α}
    (h : ∀ item ∈ items, ∃ result, f item = .ok result) :
    ∃ results, items.mapM f = .ok results := by
  induction items with
  | nil => exact ⟨[], rfl⟩
  | cons item items ih =>
      obtain ⟨result, hitem⟩ := h item (by simp)
      obtain ⟨results, hrest⟩ := ih fun other hother => h other (by simp [hother])
      refine ⟨result :: results, ?_⟩
      rw [List.mapM_cons, hitem, hrest]
      rfl

theorem forM_eq_ok {f : α → Except ε Unit} {items : List α} :
    items.forM f = .ok () ↔ ∀ item ∈ items, f item = .ok () := by
  induction items with
  | nil => simp [pure, Except.pure]
  | cons item items ih =>
      rw [List.forM_eq_forM] at ih ⊢
      rw [List.forM_cons, bind_eq_ok, List.forall_mem_cons, ← ih]
      constructor
      · rintro ⟨⟨⟩, hitem, hrest⟩
        exact ⟨hitem, hrest⟩
      · rintro ⟨hitem, hrest⟩
        exact ⟨(), hitem, hrest⟩

theorem foldlM_ok {f : β → α → Except ε β} {items : List α} {start : β}
    (I : List α → β → Prop) (hstart : I [] start)
    (hstep : ∀ done item value, item ∈ items → I done value →
      ∃ next, f value item = .ok next ∧ I (done ++ [item]) next) :
    ∃ value, items.foldlM f start = .ok value ∧ I items value := by
  have hgeneral : ∀ rest done value, (∀ item ∈ rest, item ∈ items) → I done value →
      ∃ result, rest.foldlM f value = .ok result ∧ I (done ++ rest) result := by
    intro rest
    induction rest with
    | nil => exact fun done value _ h => ⟨value, rfl, by simpa using h⟩
    | cons item rest ih =>
        intro done value hsub h
        obtain ⟨next, hrun, hnext⟩ := hstep done item value (hsub item (by simp)) h
        obtain ⟨result, hrest, hresult⟩ := ih (done ++ [item]) next
          (fun other hother => hsub other (by simp [hother])) hnext
        refine ⟨result, ?_, by simpa using hresult⟩
        rw [List.foldlM_cons, hrun]
        exact hrest
  simpa using hgeneral items [] start (fun _ h => h) hstart

theorem foldlM_eq_ok {f : β → α → Except ε β} {items : List α} {start result : β}
    (h : items.foldlM f start = .ok result) :
    ∀ item ∈ items, ∃ value next, f value item = .ok next := by
  induction items generalizing start with
  | nil => simp
  | cons item items ih =>
      rw [List.foldlM_cons, bind_eq_ok] at h
      obtain ⟨next, hitem, hrest⟩ := h
      intro other hother
      rcases List.mem_cons.mp hother with rfl | hin
      · exact ⟨start, next, hitem⟩
      · exact ih hrest other hin

theorem foldlM_invariant {f : β → α → Except ε β} {items : List α} {start result : β}
    (h : items.foldlM f start = .ok result) (I : List α → β → Prop) (hstart : I [] start)
    (hstep : ∀ done item rest value next, done ++ item :: rest = items → I done value →
      f value item = .ok next → I (done ++ [item]) next) : I items result := by
  have hgeneral : ∀ rest done value, done ++ rest = items → I done value →
      rest.foldlM f value = .ok result → I items result := by
    intro rest
    induction rest with
    | nil =>
        intro done value hitems hdone hrun
        obtain rfl : value = result := Except.ok.inj hrun
        rw [List.append_nil] at hitems
        exact hitems ▸ hdone
    | cons item rest ih =>
        intro done value hitems hdone hrun
        rw [List.foldlM_cons, bind_eq_ok] at hrun
        obtain ⟨next, hitem, hrest⟩ := hrun
        exact ih (done ++ [item]) next (by simpa using hitems)
          (hstep done item rest value next hitems hdone hitem) hrest
  exact hgeneral items [] start rfl hstart h

theorem exists_of_forall₂_left {R : α → β → Prop} {items : List α} {results : List β}
    (h : List.Forall₂ R items results) {item : α} (hitem : item ∈ items) :
    ∃ result ∈ results, R item result := by
  induction h with
  | nil => simp at hitem
  | @cons first result items results hfirst _ ih =>
      rcases List.mem_cons.mp hitem with rfl | hrest
      · exact ⟨result, by simp, hfirst⟩
      · obtain ⟨other, hother, hspec⟩ := ih hrest
        exact ⟨other, by simp [hother], hspec⟩

end Loops

abbrev Table (κ ν : Type) := AList fun _ : κ => ν

theorem eq_of_mem_flatMap {α β : Type} {items : List α} {f : α → List β}
    (h : (items.flatMap f).Nodup) {a b : α} (ha : a ∈ items) (hb : b ∈ items) {x : β}
    (hxa : x ∈ f a) (hxb : x ∈ f b) : a = b := by
  by_contra hne
  have hsymm : Std.Symm (Function.onFun List.Disjoint f) :=
    ⟨fun _ _ hdisjoint _ hin hin' => hdisjoint hin' hin⟩
  exact (List.nodup_flatMap.mp h).2.forall ha hb hne hxa hxb

/-! ## Tables filled by a loop -/

section Tables

variable {κ ν : Type} [DecidableEq κ] (pairs : List (κ × ν)) (start : Table κ ν)

theorem mem_keys_foldl_insert (k : κ) :
    k ∈ (pairs.foldl (fun table pair => table.insert pair.1 pair.2) start).keys ↔
      k ∈ start.keys ∨ k ∈ pairs.map (·.1) := by
  induction pairs generalizing start with
  | nil => simp
  | cons pair pairs ih =>
      rw [List.foldl_cons, ih, ← AList.mem_keys, AList.mem_insert, AList.mem_keys,
        List.map_cons, List.mem_cons]
      tauto

theorem lookup_foldl_insert {k : κ} {value : ν}
    (h : (pairs.foldl (fun table pair => table.insert pair.1 pair.2) start).lookup k =
      some value) : start.lookup k = some value ∨ (k, value) ∈ pairs := by
  induction pairs generalizing start with
  | nil => exact .inl h
  | cons pair pairs ih =>
      rcases ih _ h with hstart | hin
      · by_cases heq : k = pair.1
        · subst heq
          rw [AList.lookup_insert] at hstart
          obtain rfl := Option.some.inj hstart
          exact .inr (by simp)
        · rw [AList.lookup_insert_ne heq] at hstart
          exact .inl hstart
      · exact .inr (by simp [hin])

variable {pairs}

theorem keys_foldl_insert_perm (hnodup : (pairs.map (·.1)).Nodup) :
    (pairs.foldl (fun table pair => table.insert pair.1 pair.2) (∅ : Table κ ν)).keys.Perm
      (pairs.map (·.1)) := by
  rw [List.perm_ext_iff_of_nodup (AList.keys_nodup _) hnodup]
  intro k
  rw [mem_keys_foldl_insert]
  simp

theorem lookup_foldl_insert_mem (hnodup : (pairs.map (·.1)).Nodup) {pair : κ × ν}
    (hmem : pair ∈ pairs) :
    (pairs.foldl (fun table pair => table.insert pair.1 pair.2) (∅ : Table κ ν)).lookup
      pair.1 = some pair.2 := by
  have hkey := (mem_keys_foldl_insert pairs ∅ pair.1).mpr
    (.inr (List.mem_map_of_mem hmem))
  rw [← AList.mem_keys, ← AList.lookup_isSome] at hkey
  obtain ⟨value, hvalue⟩ := Option.isSome_iff_exists.mp hkey
  rcases lookup_foldl_insert _ _ hvalue with hempty | hin
  · cases hempty
  · have hsame := List.inj_on_of_nodup_map hnodup hin hmem rfl
    rw [hvalue, ← hsame]

theorem lookup_foldl_insert_iff (hnodup : (pairs.map (·.1)).Nodup) {k : κ} {value : ν} :
    (pairs.foldl (fun table pair => table.insert pair.1 pair.2) (∅ : Table κ ν)).lookup k =
      some value ↔ (k, value) ∈ pairs := by
  constructor
  · intro hlookup
    rcases lookup_foldl_insert _ _ hlookup with hempty | hin
    · cases hempty
    · exact hin
  · exact fun hin => lookup_foldl_insert_mem hnodup hin

theorem entries_foldl_insert_perm (hnodup : (pairs.map (·.1)).Nodup) :
    (pairs.foldl (fun table pair => table.insert pair.1 pair.2)
      (∅ : Table κ ν)).entries.Perm (pairs.map fun pair => ⟨pair.1, pair.2⟩) := by
  have hpairs : (pairs.map fun pair => (⟨pair.1, pair.2⟩ : Sigma fun _ : κ => ν)).Nodup := by
    apply List.Nodup.of_map Sigma.fst
    simpa [List.map_map, Function.comp_def] using hnodup
  rw [List.perm_ext_iff_of_nodup (AList.nodupKeys _).nodup hpairs]
  rintro ⟨k, value⟩
  rw [← AList.mem_lookup_iff, Option.mem_def]
  constructor
  · intro hlookup
    rcases lookup_foldl_insert _ _ hlookup with hempty | hin
    · cases hempty
    · exact List.mem_map.mpr ⟨_, hin, rfl⟩
  · intro hin
    obtain ⟨pair, hpair, heq⟩ := List.mem_map.mp hin
    cases heq
    exact lookup_foldl_insert_mem hnodup hpair

end Tables

structure Order where
  visit : {α : Type} → List α → List α
  perm : ∀ {α : Type} (entries : List α), (visit entries).Perm entries

namespace Order

def plain : Order := ⟨fun entries => entries, fun _ => .refl _⟩

@[simp] theorem mem_visit (order : Order) {α : Type} {entries : List α} {a : α} :
    a ∈ order.visit entries ↔ a ∈ entries :=
  (order.perm entries).mem_iff

end Order

/-- `table[ key ] or {}` followed by an assignment below that key. -/
def Table.update {κ ν : Type} [DecidableEq κ] (table : Table κ ν) (key : κ)
    (default : ν) (f : ν → ν) : Table κ ν :=
  table.insert key (f ((table.lookup key).getD default))

end OpenSan.Foundation
