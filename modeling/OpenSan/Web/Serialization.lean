import Mathlib.Data.List.Nodup
import Mathlib.Data.List.Perm.Basic
import OpenSan.Foundation.Literals
import OpenSan.Web.Base64

/-!
# Data in the text of the page

`serialize_data` and `restore_data` of `luci.util`.  A table is written as a
constructor: first what stands at the places from one on, with `nil` in the holes,
then the other entries with their keys.  A whole key goes to the second part when it
is more than three above `#` of the table.
-/

namespace OpenSan.Web

open OpenSan.Foundation

def serializeScalar : Scalar → List Char
  | .number x => Number.tostring x
  | .string text => quoted text
  | .boolean value => if value then "true".toList else "false".toList

/-- The key is written out. -/
def apart (length : Nat) : Scalar → Bool
  | .number k => k < 1 || (⌊k⌋ : ℚ) ≠ k || k - length > 3
  | _ => true

/-- `ilen`: the greatest key that is not written out. -/
def lastPlace {α : Type} (length : Nat) (entries : List (Scalar × α)) : Nat :=
  entries.foldl (fun ilen entry =>
    match entry.1 with
    | .number k => if !apart length (.number k) && k > ilen then ⌊k⌋₊ else ilen
    | _ => ilen) 0

def serializeTable (length : Nat) (entries : List (Scalar × List Char)) : List Char :=
  let data := joined ((entries.filter fun entry => apart length entry.1).map fun entry =>
    '[' :: serializeScalar entry.1 ++ "] = ".toList ++ entry.2)
  let idata := joined ((List.range (lastPlace length entries)).map fun i =>
    (entries.lookup (.number (i + 1 : Nat))).getD "nil".toList)
  idata ++ (if 0 < data.length ∧ 0 < idata.length then ", ".toList else []) ++ data

def serializeData : Value → List Char :=
  Value.fold serializeScalar fun length entries =>
    "\x7b ".toList ++ serializeTable length entries ++ " \x7d".toList

/-- `restore_data`.  The parser of Lua gives up at about 200 nested constructors; this
reader has no such limit. -/
def restoreData (text : List Char) : Option (Option Value) := returned text

/-! ## The places and the keys of a table -/

section Places

variable {α : Type} {length : Nat} {entries : List (Scalar × α)}

theorem apart_natCast {n : Nat} (hpos : 0 < n) (h : n ≤ length + 3) :
    apart length (.number n) = false := by
  have hone : (1 : ℚ) ≤ n := by exact_mod_cast hpos
  have hthree : (n : ℚ) ≤ length + 3 := by exact_mod_cast h
  simp only [apart, Int.floor_natCast, Int.cast_natCast, ne_eq, not_true, decide_false,
    Bool.or_false, Bool.or_eq_false_iff, decide_eq_false_iff_not, not_lt]
  exact ⟨hone, by linarith⟩

theorem exists_place {k : ℚ} (h : apart length (.number k) = false) :
    ∃ n : Nat, k = (n + 1 : Nat) ∧ n + 1 ≤ length + 3 := by
  simp only [apart, Bool.or_eq_false_iff, decide_eq_false_iff_not, not_lt, not_not] at h
  obtain ⟨⟨hone, hwhole⟩, hthree⟩ := h
  have hfloor : 1 ≤ ⌊k⌋ := Int.le_floor.mpr (by exact_mod_cast hone)
  obtain ⟨n, hn⟩ := Int.eq_ofNat_of_zero_le (by omega : 0 ≤ ⌊k⌋ - 1)
  have hk : k = (n + 1 : Nat) := by
    rw [← hwhole, show ⌊k⌋ = (n : Int) + 1 by omega]
    push_cast
    rfl
  refine ⟨n, hk, ?_⟩
  rw [hk] at hthree
  have hbound : ((n + 1 : Nat) : ℚ) ≤ (length + 3 : Nat) := by
    push_cast at hthree ⊢
    linarith
  exact_mod_cast hbound

def nextPlace (length ilen : Nat) : Scalar → Nat
  | .number k => if !apart length (.number k) && k > ilen then ⌊k⌋₊ else ilen
  | _ => ilen

theorem nextPlace_spec (length ilen : Nat) (key : Scalar) :
    ilen ≤ nextPlace length ilen key ∧
      (nextPlace length ilen key = ilen ∨ nextPlace length ilen key ≤ length + 3) ∧
      ∀ n : Nat, key = .number (n + 1 : Nat) → apart length key = false →
        n + 1 ≤ nextPlace length ilen key := by
  cases key with
  | string text => simp [nextPlace]
  | boolean value => simp [nextPlace]
  | number k =>
      by_cases hplace : apart length (.number k) = false ∧ k > ilen
      · obtain ⟨n, rfl, hbound⟩ := exists_place hplace.1
        have hnext : nextPlace length ilen (.number (n + 1 : Nat)) = n + 1 := by
          rw [nextPlace, if_pos (by simpa using hplace), Nat.floor_natCast]
        have hlt : ilen < n + 1 := by exact_mod_cast hplace.2
        rw [hnext]
        refine ⟨by omega, .inr hbound, fun m hm _ => ?_⟩
        simp only [Scalar.number.injEq, Nat.cast_inj] at hm
        omega
      · have hnext : nextPlace length ilen (.number k) = ilen := by
          rw [nextPlace, if_neg (by simpa using hplace)]
        rw [hnext]
        refine ⟨le_rfl, .inl rfl, fun m hm hkept => ?_⟩
        obtain rfl : k = (m + 1 : Nat) := by simpa using hm
        by_contra hlt
        exact hplace ⟨hkept, by exact_mod_cast not_le.mp hlt⟩

theorem lastPlace_eq_foldl (length : Nat) (entries : List (Scalar × α)) :
    lastPlace length entries = (entries.map (·.1)).foldl (nextPlace length) 0 := by
  rw [List.foldl_map]
  rfl

theorem foldl_nextPlace_spec (length ilen : Nat) (keys : List Scalar) :
    ilen ≤ keys.foldl (nextPlace length) ilen ∧
      (keys.foldl (nextPlace length) ilen = ilen ∨
        keys.foldl (nextPlace length) ilen ≤ length + 3) ∧
      ∀ n : Nat, .number (n + 1 : Nat) ∈ keys →
        apart length (.number (n + 1 : Nat)) = false →
        n + 1 ≤ keys.foldl (nextPlace length) ilen := by
  induction keys generalizing ilen with
  | nil => simp
  | cons key keys ih =>
      obtain ⟨hle, hbound, hplace⟩ := nextPlace_spec length ilen key
      obtain ⟨hleRest, hboundRest, hplaceRest⟩ := ih (nextPlace length ilen key)
      rw [List.foldl_cons]
      refine ⟨by omega, by omega, fun n hn hkept => ?_⟩
      rcases List.mem_cons.mp hn with rfl | hin
      · have hone := hplace n rfl hkept
        omega
      · exact hplaceRest n hin hkept

theorem lastPlace_le : lastPlace length entries ≤ length + 3 := by
  rw [lastPlace_eq_foldl]
  have hspec := (foldl_nextPlace_spec length 0 (entries.map (·.1))).2.1
  omega

theorem le_lastPlace {n : Nat} {value : α} (hin : (Scalar.number (n + 1 : Nat), value) ∈ entries)
    (hkept : apart length (.number (n + 1 : Nat)) = false) :
    n + 1 ≤ lastPlace length entries := by
  rw [lastPlace_eq_foldl]
  exact (foldl_nextPlace_spec length 0 _).2.2 n (List.mem_map.mpr ⟨_, hin, rfl⟩) hkept

theorem lastPlace_map {β : Type} (f : α → β) :
    lastPlace length (entries.map fun entry => (entry.1, f entry.2)) =
      lastPlace length entries := by
  simp [lastPlace_eq_foldl, List.map_map, Function.comp_def]

theorem nextPlace_of_apart {ilen : Nat} {key : Scalar} (h : apart length key = true) :
    nextPlace length ilen key = ilen := by
  cases key with
  | number k => simp [nextPlace, h]
  | string text => rfl
  | boolean value => rfl

theorem places_perm (length : Nat) (hnodup : (entries.map (·.1)).Nodup) :
    ((List.range (lastPlace length entries)).filterMap fun i =>
      (entries.lookup (.number (i + 1 : Nat))).map fun value =>
        ((Scalar.number (i + 1 : Nat)), value)).Perm
      (entries.filter fun entry => !apart length entry.1) := by
  have hplaces : ((List.range (lastPlace length entries)).filterMap fun i =>
      (entries.lookup (.number (i + 1 : Nat))).map fun value =>
        ((Scalar.number (i + 1 : Nat)), value)).Nodup := by
    refine List.nodup_range.filterMap fun first second entry hfirst hsecond => ?_
    obtain ⟨value, -, rfl⟩ := Option.map_eq_some_iff.mp hfirst
    obtain ⟨other, -, heq⟩ := Option.map_eq_some_iff.mp hsecond
    have hkey := congrArg Prod.fst heq
    simp only [Scalar.number.injEq, Nat.cast_inj] at hkey
    omega
  refine (List.perm_ext_iff_of_nodup hplaces ((List.Nodup.of_map _ hnodup).filter _)).mpr ?_
  rintro ⟨key, value⟩
  rw [List.mem_filterMap, List.mem_filter]
  constructor
  · rintro ⟨i, hi, hentry⟩
    obtain ⟨found, hfound, heq⟩ := Option.map_eq_some_iff.mp hentry
    obtain ⟨rfl, rfl⟩ := Prod.mk.inj heq
    have hlast : lastPlace length entries ≤ length + 3 := lastPlace_le
    rw [List.mem_range] at hi
    have hkept : apart length (.number (i + 1 : Nat)) = false :=
      apart_natCast (Nat.succ_pos i) (by omega)
    exact ⟨mem_of_lookup hfound, by rw [hkept, Bool.not_false]⟩
  · rintro ⟨hin, hkept⟩
    cases key with
    | string text => simp [apart] at hkept
    | boolean b => simp [apart] at hkept
    | number k =>
        have hplace : apart length (.number k) = false := by simpa using hkept
        obtain ⟨n, rfl, -⟩ := exists_place hplace
        have hn := le_lastPlace hin hplace
        exact ⟨n, List.mem_range.mpr (by omega), by
          rw [lookup_eq_some_of_mem hnodup hin, Option.map_some]⟩

theorem flatMap_places_perm {β : Type} (length : Nat) (f : α → List β)
    (hnodup : (entries.map (·.1)).Nodup) :
    ((entries.flatMap fun entry => if apart length entry.1 then f entry.2 else []) ++
      (List.range (lastPlace length entries)).flatMap fun i =>
        ((entries.lookup (.number (i + 1 : Nat))).map f).getD []).Perm
      (entries.flatMap fun entry => f entry.2) := by
  have hplaces := (places_perm length hnodup).flatMap_right fun entry => f entry.2
  have hrange : ((List.range (lastPlace length entries)).filterMap fun i =>
      (entries.lookup (.number (i + 1 : Nat))).map fun value =>
        ((Scalar.number (i + 1 : Nat)), value)).flatMap (fun entry => f entry.2) =
      (List.range (lastPlace length entries)).flatMap fun i =>
        ((entries.lookup (.number (i + 1 : Nat))).map f).getD [] := by
    generalize List.range (lastPlace length entries) = range
    induction range with
    | nil => rfl
    | cons i range ih =>
        rw [List.flatMap_cons, ← ih]
        cases hfound : entries.lookup (.number (i + 1 : Nat)) with
        | none => rw [List.filterMap_cons_none (by rw [hfound]; rfl)]; rfl
        | some value => rw [List.filterMap_cons_some (by rw [hfound]; rfl)]; rfl
  have hapart : (entries.flatMap fun entry => if apart length entry.1 then f entry.2 else []) =
      (entries.filter fun entry => apart length entry.1).flatMap fun entry => f entry.2 := by
    clear hnodup hplaces hrange
    induction entries with
    | nil => rfl
    | cons entry entries ih =>
        rw [List.flatMap_cons, ih, List.filter_cons]
        split
        · rw [List.flatMap_cons]
        · rw [List.nil_append]
  rw [hrange] at hplaces
  rw [hapart]
  refine (hplaces.append_left _).trans ?_
  rw [← List.flatMap_append]
  exact (List.filter_append_perm _ entries).flatMap_right _

def fieldsOf (length : Nat) (entries : List (Scalar × α)) : List (TableField α) :=
  ((List.range (lastPlace length entries)).map fun i =>
    .positional (entries.lookup (.number (i + 1 : Nat)))) ++
  (entries.filter fun entry => apart length entry.1).map fun entry =>
    .keyed entry.1 (some entry.2)

theorem assignments_positional (f : Nat → Option α) (n place : Nat) (rest : List (TableField α)) :
    assignments place ((List.range n).map (fun i => .positional (f i)) ++ rest) =
      ((List.range n).map fun i => (.number (place + i : Nat), f i)) ++
        assignments (place + n) rest := by
  induction n generalizing f place with
  | zero => rfl
  | succ n ih =>
      have hrest := ih (fun i => f (i + 1)) (place + 1)
      simp only [List.range_succ_eq_map, List.map_cons, List.map_map, Function.comp_def,
        List.cons_append, assignments, Nat.add_zero]
      rw [hrest]
      congr 2
      · refine List.map_congr_left fun i _ => ?_
        rw [Nat.succ_eq_add_one, show place + 1 + i = place + (i + 1) by omega]
      · rw [show place + 1 + n = place + (n + 1) by omega]

theorem assignments_keyed (items : List (Scalar × α)) (place : Nat) :
    assignments place (items.map fun entry => .keyed entry.1 (some entry.2)) =
      items.map fun entry => (entry.1, some entry.2) := by
  induction items with
  | nil => rfl
  | cons entry items ih => rw [List.map_cons, assignments, ih, List.map_cons]

theorem lookup_assemble_fieldsOf (hnodup : (entries.map (·.1)).Nodup) (key : Scalar) :
    (assemble 1 (fieldsOf length entries) []).lookup key = entries.lookup key := by
  have hassigned : ∀ assignment, assignment ∈ assignments 1 (fieldsOf length entries) ↔
      (∃ i < lastPlace length entries, assignment =
        (.number (i + 1 : Nat), entries.lookup (.number (i + 1 : Nat)))) ∨
      ∃ entry ∈ entries, apart length entry.1 = true ∧ assignment = (entry.1, some entry.2) := by
    intro assignment
    rw [fieldsOf, assignments_positional, assignments_keyed, List.mem_append, List.mem_map,
      List.mem_map]
    simp only [List.mem_range, List.mem_filter, Nat.add_comm 1, and_assoc,
      eq_comm (a := assignment)]
  apply lookup_assemble
  · intro assignment hin hkey
    rcases (hassigned assignment).mp hin with ⟨i, hi, rfl⟩ | ⟨entry, hentry, hout, rfl⟩
    · rw [← hkey]
    · rw [← hkey]
      exact (lookup_eq_some_of_mem hnodup hentry).symm
  · intro hout
    cases hfound : entries.lookup key with
    | none => rfl
    | some value =>
        exfalso
        have hentry := mem_of_lookup hfound
        refine hout (List.mem_map.mpr ?_)
        cases hkept : apart length key with
        | true => exact ⟨_, (hassigned _).mpr (.inr ⟨_, hentry, hkept, rfl⟩), rfl⟩
        | false =>
            cases key with
            | string text => simp [apart] at hkept
            | boolean b => simp [apart] at hkept
            | number k =>
                obtain ⟨n, rfl, -⟩ := exists_place hkept
                have hn := le_lastPlace hentry hkept
                exact ⟨_, (hassigned _).mpr (.inl ⟨n, by omega, rfl⟩), rfl⟩

end Places

/-! ## The round trip -/

/-- A numeric key is the double next to its 14 digits. -/
def exactKey : Scalar → Prop
  | .number x => Number.restored x = x
  | _ => True

/-- The keys of each table are distinct, and its numeric keys come back as they are. -/
inductive Storable : Value → Prop where
  | scalar (value : Scalar) : Storable (.scalar value)
  | table {length : Nat} {entries : List (Scalar × Value)} :
      (entries.map (·.1)).Nodup → (∀ entry ∈ entries, exactKey entry.1) →
      (∀ entry ∈ entries, Storable entry.2) → Storable (.table length entries)

def roundScalar : Scalar → Scalar
  | .number x => .number (Number.restored x)
  | value => value

/-- The value with the double next to its 14 digits for each number, keys apart. -/
def Value.rounded : Value → Value :=
  Value.fold (fun value => .scalar (roundScalar value)) .table

def reread : Value → Value :=
  Value.fold (fun value => .scalar (roundScalar value)) fun length entries =>
    constructed (fieldsOf length entries)

theorem reads_serializeScalar (value : Scalar) :
    Reads (serializeScalar value) (some (.scalar (roundScalar value))) := by
  cases value with
  | number x => exact reads_number x
  | string text => exact reads_quoted text
  | boolean b => exact reads_boolean b

theorem reads_key {key : Scalar} (h : exactKey key) :
    Reads (serializeScalar key) (some (.scalar key)) := by
  have hread := reads_serializeScalar key
  cases key with
  | number x => rwa [roundScalar, show Number.restored x = x from h] at hread
  | string text => exact hread
  | boolean b => exact hread

theorem serializeTable_eq (length : Nat) (entries : List (Scalar × List Char))
    (hne : ∀ entry ∈ entries, entry.2 ≠ []) :
    serializeTable length entries = joined
      (((List.range (lastPlace length entries)).map fun i =>
        (entries.lookup (.number (i + 1 : Nat))).getD "nil".toList) ++
      (entries.filter fun entry => apart length entry.1).map fun entry =>
        '[' :: serializeScalar entry.1 ++ "] = ".toList ++ entry.2) := by
  rw [joined_append]
  · rfl
  · intro text htext
    obtain ⟨i, -, rfl⟩ := List.mem_map.mp htext
    cases hfound : entries.lookup (.number (i + 1 : Nat)) with
    | none => simp
    | some text => exact hne _ (mem_of_lookup hfound)
  · intro text htext
    obtain ⟨entry, -, rfl⟩ := List.mem_map.mp htext
    simp

theorem reads_ne_nil {text : List Char} {value : Option Value} (h : Reads text value) :
    text ≠ [] :=
  (FieldReads.positional h).ne_nil

theorem reads_serializeData {value : Value} (h : Storable value) :
    Reads (serializeData value) (some (reread value)) := by
  induction h with
  | scalar value => exact reads_serializeScalar value
  | @table length entries hnodup hkeys hentries ih =>
      have hreads : ∀ entry ∈ entries, Reads (serializeData entry.2) (some (reread entry.2)) := ih
      rw [serializeData, Value.fold_table, reread, Value.fold_table, serializeTable_eq]
      · refine reads_constructor (List.rel_append ?_ ?_)
        · rw [lastPlace_map, lastPlace_map, List.forall₂_map_left_iff, List.forall₂_map_right_iff,
            List.forall₂_same]
          intro i _
          rw [lookup_map, lookup_map]
          cases hfound : entries.lookup (.number (i + 1 : Nat)) with
          | none => exact .positional reads_nil
          | some value => exact .positional (hreads _ (mem_of_lookup hfound))
        · rw [List.filter_map, List.filter_map, List.map_map, List.map_map,
            List.forall₂_map_left_iff, List.forall₂_map_right_iff]
          refine List.forall₂_same.mpr fun entry hentry => ?_
          have hin := (List.mem_filter.mp hentry).1
          exact .keyed (reads_key (hkeys entry hin)) (hreads entry hin)
      · intro entry hentry
        obtain ⟨source, hsource, rfl⟩ := List.mem_map.mp hentry
        exact reads_ne_nil (hreads source hsource)

theorem lookup_reread {length : Nat} {entries : List (Scalar × Value)}
    (hnodup : (entries.map (·.1)).Nodup) (key : Scalar) :
    (reread (.table length entries)).lookup key = (entries.lookup key).map reread := by
  have hkeys : ((entries.map fun entry => (entry.1, reread entry.2)).map (·.1)).Nodup := by
    rwa [List.map_map]
  rw [reread, Value.fold_table]
  exact (lookup_assemble_fieldsOf hkeys key).trans (lookup_map reread entries key)

theorem same_reread {value : Value} (h : Storable value) :
    (reread value).Same (Value.rounded value) := by
  induction h with
  | scalar value => exact fun path => rfl
  | @table length entries hnodup _ _ ih =>
      intro path
      cases path with
      | nil => rw [reread, Value.rounded, Value.fold_table, Value.fold_table]; rfl
      | cons key path =>
          have hrounded : (Value.rounded (.table length entries)).lookup key =
              (entries.lookup key).map Value.rounded := by
            rw [Value.rounded, Value.fold_table]
            exact lookup_map Value.rounded entries key
          rw [Value.follow, Value.follow, lookup_reread hnodup, hrounded]
          cases hfound : entries.lookup key with
          | none => rfl
          | some value => exact ih _ (mem_of_lookup hfound) path

theorem restoreData_serializeData {value : Value} (h : Storable value) :
    ∃ restored, restoreData (serializeData value) = some (some restored) ∧
      restored.Same (Value.rounded value) :=
  ⟨reread value, returned_eq (reads_serializeData h), same_reread h⟩

theorem follow_rounded (path : List Scalar) (value : Value) :
    (Value.rounded value).follow path = (value.follow path).map Value.rounded := by
  induction path generalizing value with
  | nil => rfl
  | cons key path ih =>
      have hlookup : (Value.rounded value).lookup key = (value.lookup key).map Value.rounded := by
        cases value with
        | scalar value => rfl
        | table length entries =>
            rw [Value.rounded, Value.fold_table]
            exact lookup_map Value.rounded entries key
      rw [Value.follow, Value.follow, hlookup]
      cases value.lookup key with
      | none => rfl
      | some next => exact ih next

theorem leaf_rounded (value : Value) :
    (Value.rounded value).leaf = value.leaf.map roundScalar := by
  cases value with
  | scalar value => rfl
  | table length entries =>
      rw [Value.rounded, Value.fold_table]
      rfl

theorem roundScalar_eq_self_iff {value : Scalar} :
    roundScalar value = value ↔ ∀ x, value = .number x → Number.restored x = x := by
  cases value with
  | number x => simp [roundScalar]
  | string text => simp [roundScalar]
  | boolean b => simp [roundScalar]

theorem same_rounded_iff {value : Value} : (Value.rounded value).Same value ↔
    ∀ path x, value.follow path = some (.scalar (.number x)) → Number.restored x = x := by
  constructor
  · intro hsame path x hfollow
    have hleaf := hsame path
    rw [follow_rounded, hfollow, Option.map_some, Option.map_some, Option.map_some, leaf_rounded,
      Option.some.injEq] at hleaf
    exact roundScalar_eq_self_iff.mp (Option.some.inj hleaf) x rfl
  · intro hdigits path
    rw [follow_rounded]
    cases hfollow : value.follow path with
    | none => rfl
    | some found =>
        rw [Option.map_some, Option.map_some, Option.map_some, leaf_rounded]
        cases found with
        | scalar value =>
            have hkept : roundScalar value = value := by
              refine roundScalar_eq_self_iff.mpr fun x hx => hdigits path x ?_
              rw [hfollow, hx]
            simp [Value.leaf, hkept]
        | table length entries => rfl

/-- Storing a value and restoring it keeps all it shows up to the digits of its numbers,
and all of it exactly when each of them is the double next to its 14 digits. -/
theorem serialize_roundTrip {value : Value} (h : Storable value) :
    ∃ restored, restoreData (serializeData value) = some (some restored) ∧
      restored.Same (Value.rounded value) ∧
      (restored.Same value ↔
        ∀ path x, value.follow path = some (.scalar (.number x)) → Number.restored x = x) := by
  obtain ⟨restored, hrestored, hsame⟩ := restoreData_serializeData h
  refine ⟨restored, hrestored, hsame, ?_⟩
  rw [← same_rounded_iff]
  constructor
  · exact fun hexact path => (hsame path).symm.trans (hexact path)
  · exact fun hexact path => (hsame path).trans (hexact path)

def holedTable : Value :=
  .table 1 [(.string "id".toList, .scalar (.string "a\"\n".toList)),
    (.number 1, .table 0 []), (.number 3, .scalar (.number 100000000000001))]

theorem serialize_roundTrip_holedTable :
    ∃ restored, restoreData (serializeData holedTable) = some (some restored) ∧
      restored.Same (Value.rounded holedTable) ∧
      (restored.Same holedTable ↔ ∀ path x,
        holedTable.follow path = some (.scalar (.number x)) → Number.restored x = x) := by
  have hkeys : ∀ n : Nat, n < 10 ^ 14 → exactKey (.number n) := fun n h =>
    Number.restored_natCast h
  refine serialize_roundTrip (.table (by decide) ?_ ?_)
  · simp only [List.forall_mem_cons]
    refine ⟨trivial, ?_, ?_, by simp⟩
    · simpa using hkeys 1 (by norm_num)
    · simpa using hkeys 3 (by norm_num)
  · simp only [List.forall_mem_cons]
    exact ⟨.scalar _, .table (by simp) (by simp) (by simp), .scalar _, by simp⟩

/-! ## The bytes of the text -/

def ByteScalar : Scalar → Prop
  | .string text => IsBytes text
  | _ => True

inductive ByteStrings : Value → Prop where
  | scalar {value : Scalar} : ByteScalar value → ByteStrings (.scalar value)
  | table {length : Nat} {entries : List (Scalar × Value)} :
      (∀ entry ∈ entries, ByteScalar entry.1) → (∀ entry ∈ entries, ByteStrings entry.2) →
      ByteStrings (.table length entries)

theorem isBytes_append {first second : List Char} :
    IsBytes (first ++ second) ↔ IsBytes first ∧ IsBytes second :=
  List.forall_mem_append

theorem isBytes_joined {texts : List (List Char)} (h : ∀ text ∈ texts, IsBytes text) :
    IsBytes (joined texts) := by
  have hgeneral : ∀ (texts : List (List Char)) (start : List Char), IsBytes start →
      (∀ text ∈ texts, IsBytes text) → IsBytes (texts.foldl (fun text item => text ++
        (if 0 < text.length then ", ".toList else []) ++ item) start) := by
    intro texts
    induction texts with
    | nil => exact fun _ hstart _ => hstart
    | cons item texts ih =>
        intro start hstart htexts
        simp only [List.forall_mem_cons] at htexts
        refine ih _ (isBytes_append.mpr ⟨isBytes_append.mpr ⟨hstart, ?_⟩, htexts.1⟩) htexts.2
        split <;> decide
  exact hgeneral texts [] (by decide) h

theorem toNat_lt_of_le {c d : Char} (hle : c ≤ d) (hd : d.toNat < 256) : c.toNat < 256 :=
  lt_of_le_of_lt (UInt32.le_iff_toNat_le.mp (Char.le_def.mp hle)) hd

theorem isBytes_tostring (x : ℚ) : IsBytes (Number.tostring x) := by
  have hmantissa : ∀ c, Number.isMantissa c = true → c.toNat < 256 := by
    intro c hc
    simp only [Number.isMantissa, Pattern.digit, Bool.or_eq_true, Bool.and_eq_true,
      decide_eq_true_eq, beq_iff_eq] at hc
    rcases hc with ⟨-, hle⟩ | rfl
    · exact toNat_lt_of_le hle (by decide)
    · decide
  have hexponent : ∀ e : Int, IsBytes (Number.exponentText e) := by
    intro e c hc
    rcases List.mem_append.mp hc with hin | hin
    · split at hin <;> simp at hin <;> rcases hin with rfl | rfl <;> decide
    · exact hmantissa c (by simp [Number.isMantissa, Number.twoDigits_digits hin])
  have hpositive : ∀ {y : ℚ}, 0 < y → IsBytes (Number.positiveText y) := by
    intro y hy
    obtain ⟨mantissa, e, htext | htext, hall, -⟩ := Number.positiveText_shape hy
    · rw [htext]
      exact fun c hc => hmantissa c (hall c hc)
    · rw [htext]
      exact isBytes_append.mpr ⟨fun c hc => hmantissa c (hall c hc), hexponent e⟩
  unfold Number.tostring
  split
  · decide
  · split
    · rename_i hneg
      exact List.forall_mem_cons.mpr ⟨by decide, hpositive (by linarith)⟩
    · rename_i hne hnonneg
      exact hpositive (lt_of_le_of_ne (not_lt.mp hnonneg) (Ne.symm hne))

theorem isBytes_quoted {text : List Char} (h : IsBytes text) : IsBytes (quoted text) := by
  refine isBytes_append.mpr ⟨List.forall_mem_cons.mpr ⟨by decide, fun c hc => ?_⟩, by decide⟩
  obtain ⟨d, hd, hc⟩ := List.mem_flatMap.mp hc
  unfold quoteChar at hc
  split at hc
  · rcases List.mem_pair.mp hc with rfl | rfl
    · decide
    · exact h _ hd
  · split at hc
    · exact (by decide : IsBytes "\\r".toList) c hc
    · split at hc
      · exact (by decide : IsBytes "\\000".toList) c hc
      · obtain rfl : c = d := by simpa using hc
        exact h _ hd

theorem isBytes_serializeScalar {value : Scalar} (h : ByteScalar value) :
    IsBytes (serializeScalar value) := by
  cases value with
  | number x => exact isBytes_tostring x
  | string text => exact isBytes_quoted h
  | boolean b => cases b <;> decide

theorem isBytes_serializeData {value : Value} (h : ByteStrings value) :
    IsBytes (serializeData value) := by
  induction h with
  | scalar h => exact isBytes_serializeScalar h
  | @table length entries hkeys _ ih =>
      have htexts : ∀ entry ∈ entries, IsBytes (serializeData entry.2) := ih
      have hentries : ∀ entry ∈ entries.map fun entry => (entry.1, serializeData entry.2),
          ByteScalar entry.1 ∧ IsBytes entry.2 := by
        intro entry hentry
        obtain ⟨source, hsource, rfl⟩ := List.mem_map.mp hentry
        exact ⟨hkeys source hsource, htexts source hsource⟩
      rw [serializeData, Value.fold_table]
      refine isBytes_append.mpr ⟨isBytes_append.mpr ⟨by decide, ?_⟩, by decide⟩
      refine isBytes_append.mpr ⟨isBytes_append.mpr ⟨isBytes_joined ?_, ?_⟩, isBytes_joined ?_⟩
      · intro text htext
        obtain ⟨i, -, rfl⟩ := List.mem_map.mp htext
        cases hfound : List.lookup (.number (i + 1 : Nat))
            (entries.map fun entry => (entry.1, serializeData entry.2)) with
        | none => exact hfound ▸ (by decide : IsBytes "nil".toList)
        | some text => exact hfound ▸ (hentries _ (mem_of_lookup hfound)).2
      · split <;> decide
      · intro text htext
        obtain ⟨entry, hentry, rfl⟩ := List.mem_map.mp htext
        have hspec := hentries entry (List.mem_filter.mp hentry).1
        exact isBytes_append.mpr ⟨isBytes_append.mpr
          ⟨List.forall_mem_cons.mpr ⟨by decide, isBytes_serializeScalar hspec.1⟩, by decide⟩,
            hspec.2⟩

end OpenSan.Web
