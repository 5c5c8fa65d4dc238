import OpenSan.Controller.Requests

/-!
# What a request can do to the stored patterns

One lemma per handler lists the pattern lists it can leave behind, together
with the checks it has passed by then.  The invariants of the store are derived
from these lemmas and never look into a handler again.
-/

namespace OpenSan.Controller

open OpenSan.Foundation
open OpenSan.Scst
open OpenSan.Scst.AccessPattern (withoutName rehome)

def selected (host : Host) (patterns : List AccessPattern)
    (sectionNameHash : String) : Option AccessPattern :=
  match findByHash host sectionNameHash (host.order.visit
      (patterns.filterMap AccessPattern.sectionName).dedup) with
  | .error _ => none
  | .ok sectionName =>
      patterns.find? fun pattern => pattern.sectionName == some sectionName

theorem selected_mem {host : Host} {patterns : List AccessPattern}
    {sectionNameHash : String} {pattern : AccessPattern}
    (h : selected host patterns sectionNameHash = some pattern) :
    pattern ∈ patterns ∧ pattern.sectionName.isSome = true := by
  unfold selected at h
  split at h
  · cases h
  · refine ⟨List.mem_of_find?_eq_some h, ?_⟩
    have hname := List.find?_some h
    rw [beq_iff_eq] at hname
    simp [hname]

def NewEffect (world after : World) : Prop :=
  after = world ∨
  ∃ record : AccessPattern, record.sectionName.isSome = true ∧
    record.filename = none ∧
    (∀ other ∈ world.patterns, other.name ≠ record.name) ∧
    after = { world with patterns := world.patterns ++ [record] }

private theorem savedPatterns_fresh (host : Host) {record : AccessPattern}
    (hsection : record.sectionName = none) (patterns : List AccessPattern) :
    AccessPattern.savedPatterns host record.toAttrs patterns =
      patterns ++ [AccessPattern.stored record
        (AccessPattern.sectionFor host patterns)] := by
  have hself : ({ record.toAttrs with sectionName := none } :
      AccessPattern.Attrs) = record.toAttrs := by
    simp [AccessPattern.toAttrs, hsection]
  have hkept : AccessPattern.kept record.toAttrs patterns = patterns := by
    simp [AccessPattern.kept, AccessPattern.toAttrs, hsection]
  unfold AccessPattern.savedPatterns
  rw [hself, AccessPattern.new_toAttrs, hkept]

theorem new_effect (host : Host) (form : PatternForm) (world : World) :
    NewEffect world (scstAccessPatternNew host form world).2 := by
  refine Action.final_ite (fun _ => .inl rfl) fun _ => ?_
  refine Action.final_read (Action.final_ite (fun _ => .inl rfl) fun htaken => ?_)
  refine Action.final_require (fun _ => .inl rfl) fun _ => ?_
  refine Action.final_require (fun _ => .inl rfl) fun _ => ?_
  cases hnew : AccessPattern.new (form.attrs none) with
  | error e => exact .inl rfl
  | ok record =>
      obtain ⟨hname, -, hfile, hsection⟩ := AccessPattern.new_eq_ok hnew
      have hfile' : record.filename = none := hfile
      refine Action.final_pcall ?_
      rw [AccessPattern.save_state, savedPatterns_fresh host hsection]
      refine .inr ⟨AccessPattern.stored record
        (AccessPattern.sectionFor host world.patterns), rfl, ?_, ?_, ?_⟩
      · simp [AccessPattern.stored, hfile', uciOption]
      · intro other hother heq
        apply htaken
        have hform : form.name = some record.name := hname
        rw [List.any_eq_true]
        exact ⟨other, hother, by rw [hform, beq_iff_eq]; exact congrArg some heq⟩
      · cases (AccessPattern.save host record.toAttrs world).1 <;> rfl

private theorem final_section {β : Type} {Q : World → Prop} {host : Host}
    {world : World} {sectionNameHash : String} {next : String → Script β}
    (hfail : Q world)
    (hfound : ∀ sectionName,
      (world.patterns.find? fun pattern =>
        pattern.sectionName == some sectionName) =
          selected host world.patterns sectionNameHash →
      Q (next sectionName world).2) :
    Q ((findAccessPatternSectionNameByHash host sectionNameHash >>= next)
      world).2 := by
  refine Action.final_bind ?_ ?_
  · intro e world' hrun
    have hstate : world' = world := by
      have := congrArg Prod.snd hrun
      exact this.symm
    rw [hstate]
    exact hfail
  · intro sectionName world' hrun
    have hstate : world' = world := by
      have := congrArg Prod.snd hrun
      exact this.symm
    have hhash : findByHash host sectionNameHash (host.order.visit
        (world.patterns.filterMap AccessPattern.sectionName).dedup) =
          .ok sectionName :=
      congrArg Prod.fst hrun
    rw [hstate]
    exact hfound sectionName (by simp only [selected, hhash])

def DeleteEffect (host : Host) (sectionNameHash : String)
    (world after : World) : Prop :=
  after = world ∨
  ∃ pattern, selected host world.patterns sectionNameHash = some pattern ∧
    after = { world with
      patterns := withoutName (some pattern.name) world.patterns }

theorem delete_effect (host : Host) (sectionNameHash : String) (world : World) :
    DeleteEffect host sectionNameHash world
      (scstAccessPatternDelete host sectionNameHash world).2 := by
  refine final_section (.inl rfl) fun sectionName hselected => ?_
  refine Action.final_read ?_
  rw [hselected]
  cases hpattern : selected host world.patterns sectionNameHash with
  | none => exact .inl rfl
  | some pattern => exact .inr ⟨pattern, hpattern, rfl⟩

def UnbindEffect (host : Host) (sectionNameHash : String)
    (world after : World) : Prop :=
  after.patterns = world.patterns ∨
  ∃ pattern sectionName targets,
    selected host world.patterns sectionNameHash = some pattern ∧
    pattern.sessions host = .ok targets ∧
    after.patterns = rehome world.patterns pattern "" sectionName

theorem unbind_effect (host : Host) (sectionNameHash : String) (world : World) :
    UnbindEffect host sectionNameHash world
      (scstAccessPatternUnbind host sectionNameHash world).2 := by
  refine final_section (.inl rfl) fun sectionName hselected => ?_
  refine Action.final_read ?_
  rw [hselected]
  cases hpattern : selected host world.patterns sectionNameHash with
  | none => exact .inl rfl
  | some pattern =>
      refine Action.final_pcall ?_
      rcases AccessPattern.unbind_run host (selected_mem hpattern).2 world with
        ⟨e, -, hrun⟩ | ⟨targets, newName, hsessions, hrun⟩
      · rw [hrun]
        exact .inl rfl
      · rw [hrun]
        refine Action.final_pcall
          (.inr ⟨pattern, newName, targets, hpattern, hsessions, ?_⟩)
        exact (Daemon.apply_store host _).1

def EditRecord (form : PatternForm) (record : AccessPattern) : Prop :=
  form.name = some record.name ∧ form.lun = some record.lun ∧
    record.filename = none ∧ record.sectionName.isSome = true

/-- Nothing happens, or the patterns with the submitted name are gone and an
unbound record made from the form may have been appended. -/
def EditEffect (host : Host) (sectionNameHash : String) (form : PatternForm)
    (world after : World) : Prop :=
  after = world ∨
  ∃ pattern, selected host world.patterns sectionNameHash = some pattern ∧
    form.name ≠ some "" ∧ form.lun.isSome = true ∧
    (form.name = some pattern.name ∨
      ∀ other ∈ world.patterns, some other.name ≠ form.name) ∧
    (after = { world with patterns := withoutName form.name world.patterns } ∨
      ∃ record, EditRecord form record ∧ after = { world with
        patterns := withoutName form.name world.patterns ++ [record] })

theorem edit_effect (host : Host) (sectionNameHash : String)
    (form : PatternForm) (world : World) :
    EditEffect host sectionNameHash form world
      (scstAccessPatternEdit host sectionNameHash form world).2 := by
  refine final_section (.inl rfl) fun sectionName hselected => ?_
  refine Action.final_read ?_
  rw [hselected]
  refine Action.final_lift (fun _ _ => .inl rfl) fun pattern hnonNil => ?_
  have hpattern : selected host world.patterns sectionNameHash =
      some pattern := nonNil_eq_ok hnonNil
  refine Action.final_ite (fun _ => .inl rfl) fun hempty => ?_
  refine Action.final_read (Action.final_ite (fun _ => .inl rfl) fun htaken => ?_)
  refine Action.final_require (fun _ => .inl rfl) fun hnumber => ?_
  have hafter : EditEffect host sectionNameHash form world
      (AccessPattern.save host (form.attrs pattern.sectionName) world).2 := by
    rw [AccessPattern.save_state]
    refine .inr ⟨pattern, hpattern, hempty, hnumber, ?_, ?_⟩
    · by_cases hname : form.name = some pattern.name
      · exact .inl hname
      · refine .inr fun other hother heq => htaken ⟨hname, ?_⟩
        rw [List.find?_isSome]
        exact ⟨other, hother, by simpa using heq⟩
    · have hkept : AccessPattern.kept (form.attrs pattern.sectionName)
          world.patterns = withoutName form.name world.patterns := by
        simp [AccessPattern.kept, PatternForm.attrs, (selected_mem hpattern).2]
      unfold AccessPattern.savedPatterns
      rw [hkept]
      cases hnew : AccessPattern.new
          { form.attrs pattern.sectionName with sectionName := none } with
      | error e => exact .inl rfl
      | ok record =>
          obtain ⟨hname, hlun, hfile, -⟩ := AccessPattern.new_eq_ok hnew
          have hfile' : record.filename = none := hfile
          refine .inr ⟨AccessPattern.stored record (AccessPattern.sectionFor host
            (withoutName form.name world.patterns)), ⟨hname, hlun, ?_, rfl⟩, rfl⟩
          simp [AccessPattern.stored, hfile', uciOption]
  refine Action.final_pcall ?_
  cases (AccessPattern.save host (form.attrs pattern.sectionName) world).1 <;>
    exact hafter

theorem rehome_rehome (patterns : List AccessPattern) (pattern : AccessPattern)
    (device sectionName newName : String) :
    rehome (rehome patterns pattern device sectionName)
        { pattern with
          sectionName := some sectionName
          filename := uciOption device } "" newName =
      rehome patterns pattern "" newName := by
  simp [rehome, withoutName, List.filter_filter]

theorem find?_rehome (patterns : List AccessPattern) (pattern : AccessPattern)
    (device sectionName : String) :
    ((rehome patterns pattern device sectionName).find? fun other =>
      some other.name == some pattern.name) =
        some { pattern with
          sectionName := some sectionName
          filename := uciOption device } := by
  have hnone : (withoutName (some pattern.name) patterns).find?
      (fun other => some other.name == some pattern.name) = none := by
    rw [List.find?_eq_none]
    intro other hother
    simpa [withoutName] using (List.mem_filter.mp hother).2
  rw [rehome, List.find?_append, hnone]
  simp

/-- The daemon accepts a bind, or the bind cannot be taken back. -/
def BindStands (host : Host) (bound : AccessPattern) (world : World) : Prop :=
  (∃ configuration, Configuration.describe host world.patterns
    world.credentials = .ok configuration) ∨
  ∃ e, bound.sessions host = .error e

def ApplyEffect (host : Host) (patterns : List AccessPattern)
    (pattern bound : AccessPattern) (before after : World) : Prop :=
  (after.patterns = before.patterns ∧ BindStands host bound before) ∨
  ∃ sectionName, after.patterns = rehome patterns pattern "" sectionName

/-- When the daemon refuses, the bind stands because it cannot be taken back,
or the pattern has lost its volume. -/
theorem applyOrUnbind_refused (host : Host) (world : World)
    {patterns : List AccessPattern} {pattern : AccessPattern}
    {device sectionName : String}
    (hpatterns : world.patterns = rehome patterns pattern device sectionName)
    {e : Error} (hrefused : (Daemon.apply host world).1 = .error e) :
    (∃ e', ({ pattern with
          sectionName := some sectionName
          filename := uciOption device } : AccessPattern).sessions host = .error e' ∧
        (applyOrUnbind host pattern.name world).2.patterns = world.patterns) ∨
      ∃ targets newName, ({ pattern with
          sectionName := some sectionName
          filename := uciOption device } : AccessPattern).sessions host = .ok targets ∧
        (applyOrUnbind host pattern.name world).2.patterns =
          rehome patterns pattern "" newName := by
  have hstore := (Daemon.apply_store host world).1
  have hsection : ({ pattern with
      sectionName := some sectionName
      filename := uciOption device } : AccessPattern).sectionName.isSome =
        true := rfl
  have hfound : AccessPattern.findByName (some pattern.name)
      (Daemon.apply host world).2 = (.ok (some { pattern with
        sectionName := some sectionName
        filename := uciOption device }), (Daemon.apply host world).2) := by
    simp only [AccessPattern.findByName, AccessPattern.findBy, Action.read_run, hstore,
      hpatterns, find?_rehome]
  rcases AccessPattern.unbind_run host hsection (Daemon.apply host world).2
    with ⟨e', hsessions, hunbind⟩ | ⟨targets, newName, hsessions, hunbind⟩
  · refine .inl ⟨e', hsessions, ?_⟩
    simp only [applyOrUnbind, Action.bind_run, Action.pcall_run, hrefused, hfound,
      hunbind, hstore]
  · refine .inr ⟨targets, newName, hsessions, ?_⟩
    have hrehome : rehome (Daemon.apply host world).2.patterns
        { pattern with
          sectionName := some sectionName
          filename := uciOption device } "" newName =
            rehome patterns pattern "" newName := by
      rw [hstore, hpatterns, rehome_rehome]
    have hagain := (Daemon.apply_store host { (Daemon.apply host world).2 with
      patterns := rehome patterns pattern "" newName
      served := (Daemon.apply host world).2.served.filter
        fun other => other.name ∉ targets }).1
    simp only [applyOrUnbind, Action.bind_run, Action.pcall_run, hrefused, hfound,
      hunbind, hrehome]
    split
    · rename_i hrun
      rw [hrun] at hagain
      exact hagain
    · rename_i hrun
      rw [hrun] at hagain
      exact hagain

theorem applyOrUnbind_effect (host : Host) (world : World)
    {patterns : List AccessPattern} {pattern : AccessPattern}
    {device sectionName : String}
    (hpatterns : world.patterns = rehome patterns pattern device sectionName) :
    ApplyEffect host patterns pattern
      { pattern with
        sectionName := some sectionName
        filename := uciOption device } world
      (applyOrUnbind host pattern.name world).2 := by
  cases hresult : (Daemon.apply host world).1 with
  | ok _ =>
      have hstore := (Daemon.apply_store host world).1
      have hstands := Daemon.apply_eq_ok hresult
      refine Action.final_pcall ?_
      rw [hresult]
      cases host.cachingApply <;> exact .inl ⟨hstore, .inl hstands⟩
  | error e =>
      rcases applyOrUnbind_refused host world hpatterns hresult with
        ⟨e', hsessions, hafter⟩ | ⟨targets, newName, -, hafter⟩
      · exact .inl ⟨hafter, .inr ⟨e', hsessions⟩⟩
      · exact .inr ⟨newName, hafter⟩

/-- Nothing happens to the patterns, or the selected one is bound to the
volume, or (when the daemon refuses) it has lost its volume. -/
def BindEffect (host : Host) (sectionNameHash : String)
    (logicalVolumeSelect : Option String) (world after : World) : Prop :=
  after.patterns = world.patterns ∨
  ∃ pattern device sectionName, logicalVolumeSelect = some device ∧
    selected host world.patterns sectionNameHash = some pattern ∧
    lunBusy world.patterns device pattern = false ∧
    (pattern.lun ≠ 0 → lunZeroExists world.patterns device = true) ∧
    (after.patterns = rehome world.patterns pattern device sectionName ∧
        BindStands host
          { pattern with
            sectionName := some sectionName
            filename := uciOption device }
          { world with
            patterns := rehome world.patterns pattern device sectionName } ∨
      after.patterns = rehome world.patterns pattern "" sectionName)

theorem bind_effect (host : Host) (sectionNameHash : String)
    (logicalVolumeSelect : Option String) (world : World) :
    BindEffect host sectionNameHash logicalVolumeSelect world
      (scstAccessPatternBind host sectionNameHash logicalVolumeSelect
        world).2 := by
  refine final_section (.inl rfl) fun sectionName hselected => ?_
  cases hdevice : logicalVolumeSelect with
  | none => exact .inl rfl
  | some device =>
      refine Action.final_read (Action.final_read ?_)
      rw [hselected]
      refine Action.final_lift (fun _ _ => .inl rfl) fun pattern hnonNil => ?_
      have hpattern : selected host world.patterns sectionNameHash =
          some pattern := nonNil_eq_ok hnonNil
      refine Action.final_ite (fun _ => .inl rfl) fun hbusy => ?_
      refine Action.final_ite (fun _ => .inl rfl) fun hzero => ?_
      obtain ⟨newName, hbind⟩ :=
        AccessPattern.bind_run host (selected_mem hpattern).2 device world
      refine Action.final_pcall ?_
      rw [hbind]
      have hguards : lunBusy world.patterns device pattern = false ∧
          (pattern.lun ≠ 0 → lunZeroExists world.patterns device = true) := by
        refine ⟨by simpa using hbusy, fun hlun => ?_⟩
        by_contra hnone
        exact hzero ⟨hlun, by simpa using hnone⟩
      rcases applyOrUnbind_effect host { world with
          patterns := rehome world.patterns pattern device newName } rfl with
        ⟨heffect, hstands⟩ | ⟨lastName, heffect⟩
      · exact .inr ⟨pattern, device, newName, rfl, hpattern, hguards.1,
          hguards.2, .inl ⟨heffect, hstands⟩⟩
      · exact .inr ⟨pattern, device, lastName, rfl, hpattern, hguards.1,
          hguards.2, .inr heffect⟩

end OpenSan.Controller
