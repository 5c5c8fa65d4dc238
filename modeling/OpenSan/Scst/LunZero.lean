import OpenSan.Scst.Exports

/-!
# When the lookup of LUN 0 fails

`Configuration.dump` reads the volume of a target from the pattern with LUN 0
of that target.  Nothing is assumed of the store here: volumes may share a
target name and patterns may share a LUN.
-/

namespace OpenSan.Scst.Configuration

open OpenSan.Foundation

def lunZeroError : Error := .nilValue "luns[\"0\"]"

structure Indexed (hostname : Option String) (done : List Export)
    (targets : Table String Luns) : Prop where
  mem_iff : ∀ target, target ∈ targets ↔
    ∃ item ∈ done, HasTarget hostname target item
  luns : ∀ target luns, targets.lookup target = some luns → ∀ lun,
    lun ∈ luns ↔ ∃ item ∈ done, HasTarget hostname target item ∧
      toString item.pattern.lun = lun

theorem indexed_nil (hostname : Option String) : Indexed hostname [] ∅ where
  mem_iff := by simp
  luns := by simp

private theorem exists_mem_snoc {done : List Export} {item : Export}
    {P : Export → Prop} :
    (∃ other ∈ done ++ [item], P other) ↔ (∃ other ∈ done, P other) ∨ P item := by
  simp [or_and_right, exists_or]

theorem Indexed.add {hostname : Option String} {done : List Export}
    {targets : Table String Luns} (h : Indexed hostname done targets)
    {item : Export} {target : String}
    (htarget : HasTarget hostname target item) :
    Indexed hostname (done ++ [item]) (targets.update target ∅ fun luns =>
      luns.insert (toString item.pattern.lun) item) := by
  have hname : ∀ {name}, HasTarget hostname name item ↔ name = target := by
    intro name
    constructor
    · intro hother
      exact Except.ok.inj (hother.symm.trans htarget)
    · rintro rfl
      exact htarget
  constructor
  · intro name
    rw [Table.update, AList.mem_insert, h.mem_iff, exists_mem_snoc, hname]
    exact or_comm
  · intro name luns hlookup lun
    rw [Table.update] at hlookup
    by_cases heq : name = target
    · subst heq
      rw [AList.lookup_insert] at hlookup
      cases hlookup
      have hold : lun ∈ (targets.lookup name).getD ∅ ↔ ∃ other ∈ done,
          HasTarget hostname name other ∧ toString other.pattern.lun = lun := by
        cases htable : targets.lookup name with
        | some luns => exact h.luns name luns htable lun
        | none =>
            have hnone := mt (h.mem_iff name).mpr (AList.lookup_eq_none.mp htable)
            constructor
            · intro hmem
              simp at hmem
            · rintro ⟨other, hother, hhas, -⟩
              exact absurd ⟨other, hother, hhas⟩ hnone
      rw [AList.mem_insert, hold, exists_mem_snoc, hname]
      simp only [true_and, or_comm, eq_comm]
    · rw [AList.lookup_insert_ne heq] at hlookup
      rw [h.luns name luns hlookup lun, exists_mem_snoc, hname]
      simp [heq]

/-- Collecting raises exactly when some volume has no target name. -/
theorem collectTargets_indexed (hostname : Option String) {done : List Export}
    {targets : Table String Luns} (h : Indexed hostname done targets)
    (items : List Export) :
    (∃ targets', collectTargets hostname items targets = .ok targets' ∧
      Indexed hostname (done ++ items) targets' ∧
      ∀ item ∈ items, ∃ target, HasTarget hostname target item) ∨
    ∃ item ∈ items, ∃ e, iqn hostname item.filename = .error e ∧
      collectTargets hostname items targets = .error e := by
  induction items generalizing done targets with
  | nil => exact .inl ⟨targets, rfl, by simpa using h, by simp⟩
  | cons item items ih =>
      cases hiqn : iqn hostname item.filename with
      | error e =>
          exact .inr ⟨item, by simp, e, hiqn, by
            simp only [collectTargets, addTarget, hiqn]⟩
      | ok target =>
          have hstep : collectTargets hostname (item :: items) targets =
              collectTargets hostname items (targets.update target ∅ fun luns =>
                luns.insert (toString item.pattern.lun) item) := by
            simp only [collectTargets, addTarget, hiqn]
          rw [hstep]
          rcases ih (h.add hiqn) with ⟨targets', hrun, hdone, hnamed⟩ |
            ⟨other, hother, e, herror, hrun⟩
          · refine .inl ⟨targets', hrun, by simpa using hdone, ?_⟩
            intro other hother
            rcases List.mem_cons.mp hother with rfl | hrest
            · exact ⟨target, hiqn⟩
            · exact hnamed other hrest
          · exact .inr ⟨other, by simp [hother], e, herror, hrun⟩

theorem describeTargets_cases (host : Host) (credentials : List AuthCredential)
    (fileios : Table String Nat)
    (entries : List (Sigma fun _ : String => Luns)) :
    ((∀ entry ∈ entries, "0" ∈ entry.2) ∧ ∃ blocks,
      describeTargets host credentials fileios entries = .ok blocks) ∨
    (∃ entry ∈ entries, "0" ∉ entry.2) ∧
      describeTargets host credentials fileios entries = .error lunZeroError := by
  induction entries with
  | nil => exact .inl ⟨by simp, [], rfl⟩
  | cons entry entries ih =>
      obtain ⟨target, luns⟩ := entry
      cases hzero : luns.lookup "0" with
      | none =>
          refine .inr ⟨⟨_, List.mem_cons_self, ?_⟩, ?_⟩
          · exact AList.lookup_eq_none.mp hzero
          · simp only [describeTargets, describeTarget, hzero, lunZeroError]
      | some first =>
          have hmem : "0" ∈ luns := by
            rw [← AList.lookup_isSome, hzero]
            rfl
          rcases ih with ⟨hall, blocks, hrun⟩ | ⟨⟨entry, hentry, hnone⟩, hrun⟩
          · refine .inl ⟨?_, _, by
              simp only [describeTargets, describeTarget, hzero, hrun]; rfl⟩
            intro entry hentry
            rcases List.mem_cons.mp hentry with rfl | hrest
            · exact hmem
            · exact hall entry hrest
          · exact .inr ⟨⟨entry, by simp [hentry], hnone⟩, by
              simp only [describeTargets, describeTarget, hzero, hrun]⟩

/-- Every exported pattern has a pattern with LUN 0 at its own target. -/
def LunZeroServed (hostname : Option String) (items : List Export) : Prop :=
  ∀ item ∈ items, ∃ zero ∈ items,
    iqn hostname zero.filename = iqn hostname item.filename ∧
      zero.pattern.lun = 0

private theorem toString_eq_zero {lun : Int} : toString lun = "0" ↔ lun = 0 := by
  have hzero : "0" = toString (0 : Int) := rfl
  rw [hzero]
  exact toString_int_inj

private theorem Indexed.lunZeroServed_iff {hostname : Option String}
    {items : List Export} {targets : Table String Luns}
    (h : Indexed hostname items targets)
    (hnamed : ∀ item ∈ items, ∃ target, HasTarget hostname target item) :
    (∀ entry ∈ targets.entries, "0" ∈ entry.2) ↔
      LunZeroServed hostname items := by
  constructor
  · intro hall item hitem
    obtain ⟨target, htarget⟩ := hnamed item hitem
    have hmem := (h.mem_iff target).mpr ⟨item, hitem, htarget⟩
    rw [← AList.lookup_isSome, Option.isSome_iff_exists] at hmem
    obtain ⟨luns, hluns⟩ := hmem
    have hzero := hall ⟨target, luns⟩ (AList.mem_lookup_iff.mp hluns)
    obtain ⟨zero, hzero, hhas, hlun⟩ := (h.luns target luns hluns "0").mp hzero
    exact ⟨zero, hzero, hhas.trans htarget.symm, toString_eq_zero.mp hlun⟩
  · intro hserved entry hentry
    have hlookup : targets.lookup entry.1 = some entry.2 :=
      AList.mem_lookup_iff.mpr hentry
    have hmem : entry.1 ∈ targets := by
      rw [← AList.lookup_isSome, hlookup]
      rfl
    obtain ⟨item, hitem, hhas⟩ := (h.mem_iff entry.1).mp hmem
    obtain ⟨zero, hzero, hsame, hlun⟩ := hserved item hitem
    exact (h.luns entry.1 entry.2 hlookup "0").mpr
      ⟨zero, hzero, hsame.trans hhas, toString_eq_zero.mpr hlun⟩

/-- With a target name for every exported volume, the description exists
exactly when every target has a pattern with LUN 0. -/
theorem describe_cases (host : Host) (patterns : List AccessPattern)
    (credentials : List AuthCredential) :
    (∃ item ∈ enabledPatterns host patterns, ∃ e,
      iqn host.hostname item.filename = .error e ∧
        describe host patterns credentials = .error e) ∨
    LunZeroServed host.hostname (enabledPatterns host patterns) ∧
      (∃ configuration,
        describe host patterns credentials = .ok configuration) ∨
    ¬ LunZeroServed host.hostname (enabledPatterns host patterns) ∧
      describe host patterns credentials = .error lunZeroError := by
  unfold describe
  cases henabled : enabledPatterns host patterns with
  | nil => exact .inr (.inl ⟨by simp [LunZeroServed], _, rfl⟩)
  | cons first rest =>
      rcases collectTargets_indexed host.hostname (indexed_nil host.hostname)
          (first :: rest) with ⟨targets, hrun, hindexed, hnamed⟩ |
        ⟨item, hitem, e, hiqn, hrun⟩
      · rw [List.nil_append] at hindexed
        have hserved := hindexed.lunZeroServed_iff hnamed
        have hvisit : (∀ entry ∈ host.order.visit targets.entries,
            "0" ∈ entry.2) ↔ ∀ entry ∈ targets.entries, "0" ∈ entry.2 := by
          simp
        rcases describeTargets_cases host credentials
            (describeFileios 1 (first :: rest) ∅)
            (host.order.visit targets.entries) with
          ⟨hall, blocks, hdescribe⟩ | ⟨⟨entry, hentry, hnone⟩, hdescribe⟩
        · exact .inr (.inl ⟨hserved.mp (hvisit.mp hall), _, by
            simp only [hrun, hdescribe]; rfl⟩)
        · refine .inr (.inr ⟨fun hzero => hnone ?_, by
            simp only [hrun, hdescribe]⟩)
          exact hvisit.mpr (hserved.mpr hzero) entry hentry
      · exact .inl ⟨item, hitem, e, hiqn, by simp only [hrun]⟩

theorem iqn_ne_lunZeroError (hostname : Option String) (filename : String) :
    iqn hostname filename ≠ .error lunZeroError := by
  unfold iqn lunZeroError
  split
  · simp
  · split <;> simp

theorem dump_ne_lunZeroError {host : Host} {patterns : List AccessPattern}
    (credentials : List AuthCredential)
    (h : LunZeroServed host.hostname (enabledPatterns host patterns)) :
    dump host patterns credentials ≠ .error lunZeroError := by
  rw [dump_eq_render]
  rcases describe_cases host patterns credentials with
    ⟨item, -, e, hiqn, hrun⟩ | ⟨-, configuration, hrun⟩ | ⟨hno, -⟩
  · intro heq
    rw [hrun] at heq
    have he : e = lunZeroError := by simpa [Except.map] using heq
    rw [he] at hiqn
    exact iqn_ne_lunZeroError _ _ hiqn
  · simp [hrun, Except.map]
  · exact absurd h hno

end OpenSan.Scst.Configuration
