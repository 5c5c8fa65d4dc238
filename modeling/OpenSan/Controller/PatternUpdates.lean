import OpenSan.Controller.Effects

/-!
# Saving, editing and binding one pattern

`save` deletes the old section before it looks at the new record, an edit
rebuilds the record from the form, and a bind that SCST refuses is taken back
by an unbind.  When these are the updates they are meant to be is decided by
the record and the store before the request.
-/

namespace OpenSan.Controller

open OpenSan.Foundation
open OpenSan.Scst
open OpenSan.Scst.AccessPattern (withoutName rehome)

/-! ## Saving -/

private theorem ofText_eq_none (text : String) :
    TargetDriver.ofText text = none ↔ text ≠ "iscsi" := by
  unfold TargetDriver.ofText
  split
  · simp
  · rename_i hne
    simpa using hne

def Complete (attrs : AccessPattern.Attrs) : Prop :=
  attrs.name ≠ none ∧ attrs.targetdriver = some "iscsi" ∧ attrs.lun ≠ none

theorem new_ok_iff (attrs : AccessPattern.Attrs) :
    (∃ record, AccessPattern.new attrs = .ok record) ↔ Complete attrs := by
  unfold AccessPattern.new Complete
  cases attrs.name with
  | none => simp
  | some name =>
      cases htext : attrs.targetdriver with
      | none => simp
      | some text =>
          cases hdriver : TargetDriver.ofText text with
          | none =>
              have hne := (ofText_eq_none text).mp hdriver
              simp [hdriver, hne]
          | some driver =>
              have heq : text = "iscsi" := by
                by_contra hne
                rw [(ofText_eq_none text).mpr hne] at hdriver
                cases hdriver
              subst heq
              cases attrs.lun <;> simp [TargetDriver.ofText]

theorem save_result (host : Host) (self : AccessPattern.Attrs) (world : World) :
    (∃ e, (AccessPattern.save host self world).1 = .error e) ↔ ¬ Complete self := by
  have hcomplete : Complete { self with sectionName := none } ↔ Complete self := .rfl
  rw [← hcomplete, ← new_ok_iff]
  cases hsection : self.sectionName.isSome <;>
    cases hnew : AccessPattern.new { self with sectionName := none } <;>
      simp [AccessPattern.save, AccessPattern.deleteByName, hsection, hnew]

private theorem withoutName_eq_self {name : Option String}
    {patterns : List AccessPattern} :
    withoutName name patterns = patterns ↔
      ∀ pattern ∈ patterns, some pattern.name ≠ name := by
  unfold withoutName
  rw [List.filter_eq_self]
  simp

/-- Saving is atomic exactly for a complete record, a record without a section
and a record whose name no pattern has. -/
theorem save_atomic_iff (host : Host) (self : AccessPattern.Attrs) (world : World) :
    (∀ e, (AccessPattern.save host self world).1 = .error e →
        (AccessPattern.save host self world).2 = world) ↔
      Complete self ∨ self.sectionName = none ∨
        ∀ pattern ∈ world.patterns, some pattern.name ≠ self.name := by
  by_cases hcomplete : Complete self
  · refine ⟨fun _ => .inl hcomplete, fun _ e he => ?_⟩
    exact absurd ⟨e, he⟩ (fun herror => (save_result host self world).mp herror hcomplete)
  obtain ⟨e, he⟩ := (save_result host self world).mpr hcomplete
  have hstate : (AccessPattern.save host self world).2 =
      { world with patterns := AccessPattern.kept self world.patterns } := by
    rw [AccessPattern.save_state, AccessPattern.savedPatterns]
    cases hnew : AccessPattern.new { self with sectionName := none } with
    | error _ => rfl
    | ok record =>
        exact absurd ((new_ok_iff { self with sectionName := none }).mp ⟨record, hnew⟩)
          hcomplete
  have hkept : (AccessPattern.save host self world).2 = world ↔
      self.sectionName = none ∨
        ∀ pattern ∈ world.patterns, some pattern.name ≠ self.name := by
    rw [hstate, ← withoutName_eq_self, AccessPattern.kept]
    cases hsection : self.sectionName with
    | none => simp
    | some name =>
        simp only [Option.isSome_some, if_true, reduceCtorEq, false_or]
        constructor
        · intro hworld
          exact congrArg World.patterns hworld
        · intro hpatterns
          rw [hpatterns]
  constructor
  · intro hatomic
    exact .inr (hkept.mp (hatomic e he))
  · rintro (hyes | hno) e' _
    · exact absurd hyes hcomplete
    · exact hkept.mpr hno

def driverless : AccessPattern.Attrs where
  sectionName := some "cfg0"
  name := some "boot"
  targetdriver := none
  lun := some 0
  filename := none
  enabled := .text "1"
  readonly := .absent
  writethrough := .absent

def oneStored : World where
  patterns := [⟨some "cfg0", "boot", .iscsi, 0, none, true, false, false⟩]
  credentials := []
  served := []
  applied := []

theorem save_driverless_not_atomic :
    ¬ ∀ e, (AccessPattern.save Host.quiet driverless oneStored).1 = .error e →
      (AccessPattern.save Host.quiet driverless oneStored).2 = oneStored := by
  intro hatomic
  have hlost := hatomic (.assertion "unallowed targetdriver") (by decide +kernel)
  exact absurd hlost (by decide +kernel)

/-! ## Editing -/

def forgetSection (pattern : AccessPattern) : AccessPattern :=
  { pattern with sectionName := none }

/-- The same patterns up to section names and order. -/
def PatternsAgree (patterns patterns' : List AccessPattern) : Prop :=
  (patterns.map forgetSection).Perm (patterns'.map forgetSection)

private theorem section_of_selected {host : Host} {world : World}
    {sectionNameHash : String} {pattern : AccessPattern}
    (h : selected host world.patterns sectionNameHash = some pattern) :
    ∃ sectionName,
      findAccessPatternSectionNameByHash host sectionNameHash world =
        (.ok sectionName, world) ∧
      AccessPattern.findBySectionName sectionName world = (.ok (some pattern), world) := by
  unfold selected at h
  split at h
  · cases h
  · rename_i sectionName hhash
    refine ⟨sectionName, ?_, ?_⟩
    · simp [findAccessPatternSectionNameByHash, AccessPattern.list, hhash]
    · simp only [AccessPattern.findBySectionName, AccessPattern.findBy, Action.read_run, h]

/-- The edit is accepted: the name is not empty and no other pattern has it,
the LUN is a number and the target driver is an allowed one. -/
structure Accepted (host : Host) (patterns : List AccessPattern)
    (sectionNameHash : String) (form : PatternForm) (pattern : AccessPattern)
    (name : String) (lun : Int) : Prop where
  selected : selected host patterns sectionNameHash = some pattern
  name_eq : form.name = some name
  name_ne : name ≠ ""
  unused : ∀ other ∈ patterns, other ≠ pattern → other.name ≠ name
  lun_eq : form.lun = some lun
  targetdriver : form.targetdriver = some "iscsi"

def submitted (form : PatternForm) (pattern : AccessPattern) (name : String)
    (lun : Int) : AccessPattern :=
  { pattern with
    name := name
    targetdriver := .iscsi
    lun := lun
    enabled := (formFlag form.enabled).isSet
    readonly := (formFlag form.readonly).isSet
    writethrough := (formFlag form.writethrough).isSet }

section Edit

variable {host : Host} {world : World} {sectionNameHash : String}
  {form : PatternForm} {pattern : AccessPattern} {name : String} {lun : Int}
  (h : Accepted host world.patterns sectionNameHash form pattern name lun)

include h in
private theorem edit_patterns : ∃ sectionName,
    (scstAccessPatternEdit host sectionNameHash form world).2.patterns =
      withoutName (some name) world.patterns ++
        [{ submitted form pattern name lun with
          sectionName := some sectionName, filename := none }] := by
  obtain ⟨hmem, hsection⟩ := selected_mem h.selected
  obtain ⟨sectionName, hhash, hfound⟩ := section_of_selected h.selected
  have hsaved := AccessPattern.save_state host (form.attrs pattern.sectionName) world
  have hrecord : AccessPattern.savedPatterns host (form.attrs pattern.sectionName)
      world.patterns = withoutName (some name) world.patterns ++
        [{ submitted form pattern name lun with
          sectionName := some (AccessPattern.sectionFor host
            (withoutName (some name) world.patterns))
          filename := none }] := by
    simp [AccessPattern.savedPatterns, AccessPattern.kept, PatternForm.attrs,
      AccessPattern.new, h.name_eq, h.lun_eq, h.targetdriver, TargetDriver.ofText,
      hsection, AccessPattern.stored, uciOption, submitted]
  refine ⟨AccessPattern.sectionFor host (withoutName (some name) world.patterns), ?_⟩
  have htaken : ¬ (form.name ≠ some pattern.name ∧
      ((world.patterns.find? fun other => some other.name == form.name).isSome =
        true)) := by
    rintro ⟨hne, hsome⟩
    obtain ⟨other, hother, hsame⟩ := List.find?_isSome.mp hsome
    rw [h.name_eq, beq_iff_eq, Option.some.injEq] at hsame
    refine h.unused other hother ?_ hsame
    rintro rfl
    exact hne (by rw [h.name_eq, hsame])
  rcases hrun : AccessPattern.save host (form.attrs pattern.sectionName) world with
    ⟨result, after⟩
  rw [hrun] at hsaved
  have hafter : (scstAccessPatternEdit host sectionNameHash form world).2 = after := by
    have hempty : form.name ≠ some "" := by
      rw [h.name_eq]
      simpa using h.name_ne
    have hlun : form.lun.isSome = true := by rw [h.lun_eq]; rfl
    simp only [scstAccessPatternEdit, Action.bind_run, hhash, hfound, Action.lift_run,
      nonNil, if_neg hempty, AccessPattern.findByName, AccessPattern.findBy,
      Action.read_run, if_neg htaken, Action.require_of_true hlun, Action.ret_run,
      Action.pcall_run, hrun]
    cases result <;> rfl
  rw [hafter]
  exact (congrArg World.patterns hsaved).trans hrecord

private theorem withoutName_eq_erase {patterns : List AccessPattern}
    (hnames : (patterns.map (·.name)).Nodup) (hmem : pattern ∈ patterns) :
    withoutName (some pattern.name) patterns = patterns.erase pattern := by
  rw [(hnames.of_map _).erase_eq_filter, withoutName]
  refine List.filter_congr fun other hother => ?_
  by_cases heq : other = pattern
  · subst heq
    simp
  · have hne : other.name ≠ pattern.name := fun hname =>
      heq (List.inj_on_of_nodup_map hnames hother hmem hname)
    rw [bne_iff_ne.mpr heq]
    exact bne_iff_ne.mpr fun hsome => hne (Option.some.inj hsome)

end Edit

def bootForm (name : String) : PatternForm where
  name := some name
  targetdriver := some "iscsi"
  lun := some 3
  enabled := some "1"
  readonly := none
  writethrough := none

def bootPattern : AccessPattern :=
  ⟨some "cfg0", "boot", .iscsi, 0, none, true, false, false⟩

def bootHash : String := Host.quiet.hash "cfg0"

section Bind

variable {host : Host} {world : World} {sectionNameHash device : String}
  {pattern : AccessPattern}

private theorem rehome_same_iff (hmem : pattern ∈ world.patterns) (sectionName : String) :
    PatternsAgree (rehome world.patterns pattern "" sectionName) world.patterns ↔
      pattern.filename = none ∧
        (world.patterns.filter fun other => other.name = pattern.name) = [pattern] := by
  have hsplit : PatternsAgree world.patterns
      (withoutName (some pattern.name) world.patterns ++
        world.patterns.filter fun other => other.name = pattern.name) := by
    have hperm := List.filter_append_perm (fun other : AccessPattern =>
      decide (some other.name ≠ some pattern.name)) world.patterns
    refine List.Perm.map _ (hperm.symm.trans ?_)
    refine List.Perm.of_eq (congrArg₂ _ ?_ ?_)
    · refine List.filter_congr fun other _ => ?_
      rw [Bool.eq_iff_iff, bne_iff_ne, decide_eq_true_iff]
    · exact List.filter_congr fun other _ => by simp
  have hiff : PatternsAgree (rehome world.patterns pattern "" sectionName) world.patterns ↔
      ([forgetSection { pattern with filename := none }]).Perm
        ((world.patterns.filter fun other => other.name = pattern.name).map
          forgetSection) := by
    rw [PatternsAgree, hsplit.congr_right, rehome, List.map_append, List.map_append,
      List.perm_append_left_iff]
    rfl
  rw [hiff, List.singleton_perm]
  constructor
  · intro heq
    obtain ⟨other, hother, hforget⟩ := List.map_eq_singleton_iff.mp heq.symm
    have hin : pattern ∈ world.patterns.filter fun other => other.name = pattern.name :=
      List.mem_filter.mpr ⟨hmem, by simp⟩
    rw [hother] at hin
    obtain rfl : pattern = other := by simpa using hin
    exact ⟨congrArg AccessPattern.filename hforget, hother⟩
  · rintro ⟨hfile, hunique⟩
    rw [hunique]
    simp [forgetSection, hfile]

private theorem not_agree_bound (hdevice : device ≠ "")
    (hbusy : lunBusy world.patterns device pattern = false) (sectionName : String) :
    ¬ PatternsAgree (rehome world.patterns pattern device sectionName)
      world.patterns := by
  intro hsame
  have hin : forgetSection { pattern with filename := some device } ∈
      world.patterns.map forgetSection := by
    refine hsame.mem_iff.mp (List.mem_map.mpr ⟨{ pattern with
      sectionName := some sectionName, filename := uciOption device }, ?_, ?_⟩)
    · simp [rehome]
    · simp [forgetSection, uciOption, hdevice]
  obtain ⟨other, hother, hforget⟩ := List.mem_map.mp hin
  have hfile : other.filename = some device := congrArg AccessPattern.filename hforget
  have hlun : (forgetSection other).lun = pattern.lun := by
    rw [hforget]
    rfl
  have hlun : other.lun = pattern.lun := hlun
  have htaken : lunBusy world.patterns device pattern = true := by
    rw [lunBusy, List.any_eq_true]
    exact ⟨other, hother, by simp [hfile, hlun]⟩
  rw [hbusy] at htaken
  cases htaken

/-- A bind that SCST refuses is undone if and only if the pattern was not bound,
is the only one of its name and the sessions of its new volume can be listed. -/
theorem bind_undone_iff
    (hselected : selected host world.patterns sectionNameHash = some pattern)
    (hdevice : device ≠ "") (hbusy : lunBusy world.patterns device pattern = false)
    (hzero : pattern.lun ≠ 0 → lunZeroExists world.patterns device = true)
    (hrefused : ∃ e, (Daemon.apply host (pattern.bind host device world).2).1 = .error e) :
    PatternsAgree
        (scstAccessPatternBind host sectionNameHash (some device) world).2.patterns
        world.patterns ↔
      pattern.filename = none ∧
        (world.patterns.filter fun other => other.name = pattern.name) = [pattern] ∧
        ∃ targets, AccessPattern.sessions host
          { pattern with filename := some device } = .ok targets := by
  obtain ⟨hmem, hsection⟩ := selected_mem hselected
  obtain ⟨sectionName, hhash, hfound⟩ := section_of_selected hselected
  obtain ⟨newName, hbind⟩ := AccessPattern.bind_run host hsection device world
  obtain ⟨e, hrefused⟩ := hrefused
  rw [hbind] at hrefused
  have hbound : AccessPattern.sessions host { pattern with
      sectionName := some newName, filename := uciOption device } =
      AccessPattern.sessions host { pattern with filename := some device } := by
    rw [uciOption, if_neg hdevice]
    rfl
  have hguard : ¬ (pattern.lun ≠ 0 ∧ lunZeroExists world.patterns device = false) := by
    rintro ⟨hlun, hnone⟩
    rw [hzero hlun] at hnone
    cases hnone
  have hafter : scstAccessPatternBind host sectionNameHash (some device) world =
      applyOrUnbind host pattern.name { world with
        patterns := rehome world.patterns pattern device newName } := by
    simp only [scstAccessPatternBind, Action.bind_run, hhash, AccessPattern.list,
      Action.read_run, hfound, Action.lift_run, nonNil, hbusy, Bool.false_eq_true,
      if_false, if_neg hguard, Action.pcall_run, hbind]
  rw [hafter]
  rcases applyOrUnbind_refused host { world with
      patterns := rehome world.patterns pattern device newName } rfl hrefused with
    ⟨e', hsessions, hstore⟩ | ⟨targets, lastName, hsessions, hstore⟩
  · rw [hstore]
    rw [hbound] at hsessions
    constructor
    · intro hsame
      exact absurd hsame (not_agree_bound hdevice hbusy newName)
    · rintro ⟨_, _, targets, hok⟩
      rw [hsessions] at hok
      cases hok
  · rw [hstore, rehome_same_iff hmem]
    rw [hbound] at hsessions
    constructor
    · rintro ⟨hfile, hunique⟩
      exact ⟨hfile, hunique, targets, hsessions⟩
    · rintro ⟨hfile, hunique, _⟩
      exact ⟨hfile, hunique⟩

end Bind

def refusingHost : Host := { Host.quiet with checkConfig := fun _ => false }

theorem bind_refused_undone :
    (∃ e, (Daemon.apply refusingHost (bootPattern.bind refusingHost "/dev/vg12/root"
        oneStored).2).1 = .error e) ∧
      PatternsAgree (scstAccessPatternBind refusingHost bootHash
        (some "/dev/vg12/root") oneStored).2.patterns oneStored.patterns := by
  have hrefused : ∃ e, (Daemon.apply refusingHost (bootPattern.bind refusingHost
      "/dev/vg12/root" oneStored).2).1 = .error e :=
    ⟨.failure "scst:Daemon:check() failed", by decide +kernel⟩
  have hselected : selected refusingHost oneStored.patterns bootHash =
      some bootPattern := by decide +kernel
  refine ⟨hrefused, (bind_undone_iff hselected (by decide) (by decide) (by decide)
    hrefused).mpr ⟨rfl, by decide, [], ?_⟩⟩
  decide +kernel

def movedPattern : AccessPattern :=
  ⟨some "cfg0", "boot", .iscsi, 0, some "/dev/vg12/home", true, false, false⟩

def oneBound : World := { oneStored with patterns := [movedPattern] }

theorem bind_refused_loses_volume :
    (∃ e, (Daemon.apply refusingHost (movedPattern.bind refusingHost "/dev/vg12/root"
        oneBound).2).1 = .error e) ∧
      ¬ PatternsAgree (scstAccessPatternBind refusingHost bootHash
        (some "/dev/vg12/root") oneBound).2.patterns oneBound.patterns := by
  refine ⟨⟨.failure "scst:Daemon:check() failed", by decide +kernel⟩, fun hsame => ?_⟩
  unfold PatternsAgree at hsame
  exact absurd hsame (by decide +kernel)

end OpenSan.Controller
