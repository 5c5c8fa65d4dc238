import OpenSan.Controller.StoreInvariant
import OpenSan.Scst.LunZero

/-!
# The LUN 0 rule

A volume that is exported at all has to be exported under LUN 0.  Only `bind`
looks at this rule.  `lunZeroGuard` says which requests leave it intact, in
terms of the store before the request.
-/

namespace OpenSan.Controller

open OpenSan.Foundation
open OpenSan.Scst
open OpenSan.Scst.AccessPattern (withoutName rehome)

def ZeroEnabled (patterns : List AccessPattern) (volume : String) : Prop :=
  ∃ zero ∈ patterns, zero.enabled = true ∧ zero.filename = some volume ∧
    zero.lun = 0

instance (patterns : List AccessPattern) (volume : String) :
    Decidable (ZeroEnabled patterns volume) := by
  unfold ZeroEnabled
  infer_instance

def LunZeroRule (patterns : List AccessPattern) : Prop :=
  ∀ pattern ∈ patterns, pattern.enabled = true →
    ∀ volume ∈ pattern.filename, ZeroEnabled patterns volume

instance (patterns : List AccessPattern) : Decidable (LunZeroRule patterns) := by
  unfold LunZeroRule
  infer_instance

/-- The rule does not depend on this pattern: it is not the enabled LUN 0
pattern of a volume with other enabled patterns. -/
def Spare (patterns : List AccessPattern) (pattern : AccessPattern) : Prop :=
  pattern.enabled = true → pattern.lun = 0 → pattern.filename.isSome = true →
    ∀ other ∈ patterns, other.enabled = true →
      other.filename = pattern.filename → other.name = pattern.name

instance (patterns : List AccessPattern) (pattern : AccessPattern) :
    Decidable (Spare patterns pattern) := by
  unfold Spare
  infer_instance

/-- Binding the pattern to a volume without an enabled LUN 0 makes the daemon
refuse the configuration, and the handler can list the sessions it has to
close before it takes the bind back. -/
def TakenBack (host : Host) (patterns : List AccessPattern)
    (pattern : AccessPattern) (device : String) : Prop :=
  host.fileExists device ≠ some false ∧
  (({ pattern with filename := some device } : AccessPattern).sessions
    host).toOption.isSome = true ∧
  ∀ other ∈ patterns, other.enabled = true → other.lun = 0 →
    ∀ volume ∈ other.boundVolume host,
      iqn host.hostname volume ≠ iqn host.hostname device

instance (host : Host) (patterns : List AccessPattern)
    (pattern : AccessPattern) (device : String) :
    Decidable (TakenBack host patterns pattern device) := by
  unfold TakenBack
  infer_instance

def BindSafe (host : Host) (patterns : List AccessPattern)
    (pattern : AccessPattern) (device : String) : Prop :=
  lunBusy patterns device pattern = false →
  (pattern.lun ≠ 0 → lunZeroExists patterns device = true) →
    Spare patterns pattern ∧
    (pattern.enabled = true → pattern.lun ≠ 0 →
      ZeroEnabled patterns device ∨ TakenBack host patterns pattern device)

instance (host : Host) (patterns : List AccessPattern)
    (pattern : AccessPattern) (device : String) :
    Decidable (BindSafe host patterns pattern device) := by
  unfold BindSafe
  infer_instance

def lunZeroGuard (world : World) (input : Host × PatternRequest) : Prop :=
  match input.2 with
  | .new _ => True
  | .delete sectionNameHash =>
      ∀ pattern ∈ selected input.1 world.patterns sectionNameHash,
        Spare world.patterns pattern
  | .unbind sectionNameHash =>
      ∀ pattern ∈ selected input.1 world.patterns sectionNameHash,
        (pattern.sessions input.1).toOption.isSome = true →
          Spare world.patterns pattern
  | .edit sectionNameHash form =>
      ∀ pattern ∈ selected input.1 world.patterns sectionNameHash,
        form.name = some pattern.name → form.name ≠ some "" →
          form.lun.isSome = true → Spare world.patterns pattern
  | .bind sectionNameHash logicalVolumeSelect =>
      ∀ pattern ∈ selected input.1 world.patterns sectionNameHash,
        ∀ device ∈ logicalVolumeSelect,
          BindSafe input.1 world.patterns pattern device

instance (world : World) (input : Host × PatternRequest) :
    Decidable (lunZeroGuard world input) := by
  unfold lunZeroGuard
  cases input.2 <;> infer_instance

/-! ## The rule and the ways the store is rewritten -/

theorem LunZeroRule.empty : LunZeroRule [] := by
  simp [LunZeroRule]

theorem ZeroEnabled.append {patterns : List AccessPattern} {volume : String}
    (h : ZeroEnabled patterns volume) (record : AccessPattern) :
    ZeroEnabled (patterns ++ [record]) volume := by
  obtain ⟨zero, hzero, hrest⟩ := h
  exact ⟨zero, List.mem_append_left _ hzero, hrest⟩

theorem LunZeroRule.append {patterns : List AccessPattern}
    {record : AccessPattern} (h : LunZeroRule patterns)
    (hrecord : record.enabled = true → ∀ volume, record.filename = some volume →
      record.lun = 0 ∨ ZeroEnabled patterns volume) :
    LunZeroRule (patterns ++ [record]) := by
  intro pattern hpattern henabled volume hvolume
  rcases List.mem_append.mp hpattern with hold | hnew
  · exact (h pattern hold henabled volume hvolume).append record
  · rw [List.mem_singleton.mp hnew] at henabled hvolume
    rcases hrecord henabled volume hvolume with hzero | hzero
    · exact ⟨record, by simp, henabled, hvolume, hzero⟩
    · exact hzero.append record

theorem LunZeroRule.append_unbound {patterns : List AccessPattern}
    {record : AccessPattern} (h : LunZeroRule patterns)
    (hrecord : record.filename = none) :
    LunZeroRule (patterns ++ [record]) := by
  refine h.append fun _ volume hvolume => ?_
  rw [hrecord] at hvolume
  cases hvolume

theorem StoreOk.eq_of_name {patterns : List AccessPattern} (h : StoreOk patterns)
    {first second : AccessPattern} (hfirst : first ∈ patterns)
    (hsecond : second ∈ patterns) (hname : first.name = second.name) :
    first = second :=
  List.inj_on_of_nodup_map h.names hfirst hsecond hname

theorem ZeroEnabled.without {patterns : List AccessPattern}
    {pattern other : AccessPattern} {volume : String}
    (hok : StoreOk patterns) (hpattern : pattern ∈ patterns)
    (hspare : Spare patterns pattern) (hother : other ∈ patterns)
    (hname : other.name ≠ pattern.name) (henabled : other.enabled = true)
    (hvolume : other.filename = some volume) (h : ZeroEnabled patterns volume) :
    ZeroEnabled (withoutName (some pattern.name) patterns) volume := by
  obtain ⟨zero, hzero, hon, hbound, hlun⟩ := h
  refine ⟨zero, mem_withoutName.mpr ⟨hzero, fun hsame => ?_⟩, hon, hbound, hlun⟩
  have heq := hok.eq_of_name hzero hpattern hsame
  subst heq
  exact hname (hspare hon hlun (by simp [hbound]) other hother henabled
    (hvolume.trans hbound.symm))

theorem LunZeroRule.without {patterns : List AccessPattern}
    {pattern : AccessPattern} (h : LunZeroRule patterns)
    (hok : StoreOk patterns) (hpattern : pattern ∈ patterns)
    (hspare : Spare patterns pattern) :
    LunZeroRule (withoutName (some pattern.name) patterns) := by
  intro other hother henabled volume hvolume
  obtain ⟨hmem, hname⟩ := mem_withoutName.mp hother
  exact ZeroEnabled.without hok hpattern hspare hmem hname henabled hvolume
    (h other hmem henabled volume hvolume)

theorem LunZeroRule.unbound {patterns : List AccessPattern}
    {pattern : AccessPattern} (h : LunZeroRule patterns)
    (hok : StoreOk patterns) (hpattern : pattern ∈ patterns)
    (hspare : Spare patterns pattern) (sectionName : String) :
    LunZeroRule (rehome patterns pattern "" sectionName) :=
  (h.without hok hpattern hspare).append_unbound (by simp [uciOption])

theorem ZeroEnabled.without_other {patterns : List AccessPattern}
    {pattern : AccessPattern} {volume : String} (hok : StoreOk patterns)
    (hpattern : pattern ∈ patterns) (hlun : pattern.lun ≠ 0)
    (h : ZeroEnabled patterns volume) :
    ZeroEnabled (withoutName (some pattern.name) patterns) volume := by
  obtain ⟨zero, hzero, hon, hbound, hzeroLun⟩ := h
  refine ⟨zero, mem_withoutName.mpr ⟨hzero, fun hsame => hlun ?_⟩, hon, hbound,
    hzeroLun⟩
  rw [← hok.eq_of_name hzero hpattern hsame]
  exact hzeroLun

theorem mem_enabledPatterns {host : Host} {patterns : List AccessPattern}
    {item : Configuration.Export} :
    item ∈ Configuration.enabledPatterns host patterns ↔
      item.pattern ∈ patterns ∧ item.pattern.enabled = true ∧
        item.pattern.boundVolume host = some item.filename := by
  obtain ⟨filename, pattern⟩ := item
  simp only [Configuration.enabledPatterns, List.mem_filterMap]
  constructor
  · rintro ⟨other, hother, hitem⟩
    split at hitem
    · rename_i henabled
      obtain ⟨volume, hvolume, heq⟩ := Option.map_eq_some_iff.mp hitem
      cases heq
      exact ⟨hother, henabled, hvolume⟩
    · cases hitem
  · rintro ⟨hpattern, henabled, hvolume⟩
    exact ⟨pattern, hpattern, by simp [henabled, hvolume]⟩

theorem not_bindStands {host : Host} {world : World} {pattern : AccessPattern}
    {device sectionName : String} (hdevice : device ≠ "")
    (henabled : pattern.enabled = true) (hlun : pattern.lun ≠ 0)
    (hback : TakenBack host world.patterns pattern device) :
    ¬ BindStands host
      { pattern with
        sectionName := some sectionName
        filename := uciOption device }
      { world with
        patterns := rehome world.patterns pattern device sectionName } := by
  obtain ⟨hexists, hsessions, hother⟩ := hback
  have hfile : uciOption device = some device := by simp [uciOption, hdevice]
  rintro (⟨configuration, hdescribe⟩ | ⟨e, herror⟩)
  · rcases Configuration.describe_cases host
        (rehome world.patterns pattern device sectionName) world.credentials with
      ⟨item, -, e, -, hrun⟩ | ⟨hserved, -⟩ | ⟨-, hrun⟩
    · rw [hrun] at hdescribe
      cases hdescribe
    · -- the pattern just bound is exported, so its target has a LUN 0
      obtain ⟨zero, hzero, htarget, hzeroLun⟩ := hserved
        ⟨device, { pattern with
          sectionName := some sectionName
          filename := uciOption device }⟩ (mem_enabledPatterns.mpr
            ⟨by simp [rehome], henabled, by
              simp [AccessPattern.boundVolume, hfile, hexists]⟩)
      obtain ⟨hmem, hon, hbound⟩ := mem_enabledPatterns.mp hzero
      rcases List.mem_append.mp hmem with hold | hnew
      · exact hother zero.pattern (mem_withoutName.mp hold).1 hon hzeroLun
          zero.filename hbound htarget
      · rw [List.mem_singleton.mp hnew] at hzeroLun
        exact hlun hzeroLun
    · rw [hrun] at hdescribe
      cases hdescribe
  · have hsame : ({ pattern with
        sectionName := some sectionName
        filename := uciOption device } : AccessPattern).sessions host =
          ({ pattern with filename := some device } : AccessPattern).sessions
            host := by
      rw [hfile]
      rfl
    rw [← hsame, herror] at hsessions
    cases hsessions

/-! ## Requests -/

theorem bind_lunZeroRule {host : Host} {sectionNameHash : String}
    {logicalVolumeSelect : Option String} {world : World}
    (hok : StoreOk world.patterns) (h : LunZeroRule world.patterns)
    (hguard : lunZeroGuard world
      (host, .bind sectionNameHash logicalVolumeSelect)) :
    LunZeroRule (scstAccessPatternBind host sectionNameHash logicalVolumeSelect
      world).2.patterns := by
  rcases bind_effect host sectionNameHash logicalVolumeSelect world with
    hsame | ⟨pattern, device, sectionName, hdevice, hselected, hbusy, hzero, hafter⟩
  · rw [hsame]
    exact h
  have hpattern := (selected_mem hselected).1
  obtain ⟨hspare, hsafe⟩ := hguard pattern hselected device hdevice hbusy hzero
  rcases hafter with ⟨hafter, hstands⟩ | hafter
  · rw [hafter]
    refine (h.without hok hpattern hspare).append ?_
    intro henabled volume hvolume
    by_cases hempty : device = ""
    · simp [uciOption, hempty] at hvolume
    · have hvolume' : device = volume := by
        simpa [uciOption, hempty] using hvolume
      subst hvolume'
      by_cases hlun : pattern.lun = 0
      · exact .inl hlun
      · rcases hsafe henabled hlun with hthere | hback
        · exact .inr (hthere.without_other hok hpattern hlun)
        · exact absurd hstands (not_bindStands hempty henabled hlun hback)
  · rw [hafter]
    exact h.unbound hok hpattern hspare sectionName

theorem edit_lunZeroRule {host : Host} {sectionNameHash : String}
    {form : PatternForm} {world : World} (hok : StoreOk world.patterns)
    (h : LunZeroRule world.patterns)
    (hguard : lunZeroGuard world (host, .edit sectionNameHash form)) :
    LunZeroRule
      (scstAccessPatternEdit host sectionNameHash form world).2.patterns := by
  rcases edit_effect host sectionNameHash form world with
    hsame | ⟨pattern, hselected, hempty, hnumber, hname, hafter⟩
  · rw [hsame]
    exact h
  have hkept : LunZeroRule (withoutName form.name world.patterns) := by
    rcases hname with hname | hfresh
    · rw [hname]
      exact h.without hok (selected_mem hselected).1
        (hguard pattern hselected hname hempty hnumber)
    · have hall : withoutName form.name world.patterns = world.patterns := by
        rw [withoutName, List.filter_eq_self]
        intro other hother
        simpa using hfresh other hother
      rw [hall]
      exact h
  rcases hafter with hafter | ⟨record, ⟨-, -, hfile, -⟩, hafter⟩
  · rw [hafter]
    exact hkept
  · rw [hafter]
    exact hkept.append_unbound hfile

theorem new_lunZeroRule {host : Host} {form : PatternForm} {world : World}
    (h : LunZeroRule world.patterns) :
    LunZeroRule (scstAccessPatternNew host form world).2.patterns := by
  rcases new_effect host form world with hsame | ⟨record, -, hfile, -, hafter⟩
  · rw [hsame]
    exact h
  · rw [hafter]
    exact h.append_unbound hfile

theorem delete_lunZeroRule {host : Host} {sectionNameHash : String}
    {world : World} (hok : StoreOk world.patterns)
    (h : LunZeroRule world.patterns)
    (hguard : lunZeroGuard world (host, .delete sectionNameHash)) :
    LunZeroRule (scstAccessPatternDelete host sectionNameHash
      world).2.patterns := by
  rcases delete_effect host sectionNameHash world with
    hsame | ⟨pattern, hselected, hafter⟩
  · rw [hsame]
    exact h
  · rw [hafter]
    exact h.without hok (selected_mem hselected).1 (hguard pattern hselected)

theorem unbind_lunZeroRule {host : Host} {sectionNameHash : String}
    {world : World} (hok : StoreOk world.patterns)
    (h : LunZeroRule world.patterns)
    (hguard : lunZeroGuard world (host, .unbind sectionNameHash)) :
    LunZeroRule (scstAccessPatternUnbind host sectionNameHash
      world).2.patterns := by
  rcases unbind_effect host sectionNameHash world with
    hsame | ⟨pattern, sectionName, targets, hselected, hsessions, hafter⟩
  · rw [hsame]
    exact h
  · have hspare := hguard pattern hselected (by
      rw [hsessions]
      rfl)
    rw [hafter]
    exact h.unbound hok (selected_mem hselected).1 hspare sectionName

def patternStep (world : World) (input : Host × PatternRequest) : World :=
  (input.2.serve input.1 world).2

theorem patternStep_lunZeroRule {world : World} {input : Host × PatternRequest}
    (hok : StoreOk world.patterns) (h : LunZeroRule world.patterns)
    (hguard : lunZeroGuard world input) :
    LunZeroRule (patternStep world input).patterns := by
  obtain ⟨host, request⟩ := input
  cases request with
  | new form => exact new_lunZeroRule h
  | delete sectionNameHash => exact delete_lunZeroRule hok h hguard
  | bind sectionNameHash device => exact bind_lunZeroRule hok h hguard
  | unbind sectionNameHash => exact unbind_lunZeroRule hok h hguard
  | edit sectionNameHash form => exact edit_lunZeroRule hok h hguard

/-! ## All runs -/

theorem LunZeroRule.served {patterns : List AccessPattern}
    (h : LunZeroRule patterns) (host : Host) :
    Configuration.LunZeroServed host.hostname
      (Configuration.enabledPatterns host patterns) := by
  intro item hitem
  obtain ⟨hmem, henabled, hbound⟩ := mem_enabledPatterns.mp hitem
  obtain ⟨hfile, hexists⟩ := Option.filter_eq_some_iff.mp hbound
  obtain ⟨zero, hzero, hon, hvolume, hlun⟩ :=
    h item.pattern hmem henabled item.filename hfile
  refine ⟨⟨item.filename, zero⟩, mem_enabledPatterns.mpr ⟨hzero, hon, ?_⟩, rfl,
    hlun⟩
  exact Option.filter_eq_some_iff.mpr ⟨hvolume, hexists⟩

/-- In every run of guarded requests, every state obeys the LUN 0 rule, and no
configuration is refused for a missing LUN 0. -/
theorem guarded_lunZeroRule {inputs : List (Host × PatternRequest)}
    (hrun : Guarded lunZeroGuard patternStep World.empty inputs) (n : Nat) :
    LunZeroRule (run patternStep World.empty (inputs.take n)).patterns ∧
      ∀ host credentials, Configuration.dump host
        (run patternStep World.empty (inputs.take n)).patterns credentials ≠
          .error Configuration.lunZeroError := by
  have hinv : ∀ world : World, ∀ input,
      StoreOk world.patterns ∧ LunZeroRule world.patterns →
      lunZeroGuard world input →
      StoreOk (patternStep world input).patterns ∧
        LunZeroRule (patternStep world input).patterns := by
    intro world input ⟨hok, h⟩ hguard
    exact ⟨input.2.serve_storeOk input.1 hok,
      patternStep_lunZeroRule hok h hguard⟩
  have h := (hrun.take n).invariant hinv ⟨StoreOk.empty, LunZeroRule.empty⟩
  exact ⟨h.2, fun host credentials =>
    Configuration.dump_ne_lunZeroError credentials (h.2.served host)⟩

def lunForm (name : String) (lun : Int) : PatternForm :=
  ⟨some name, some "iscsi", some lun, some "1", none, none⟩

def twoLuns : List (Host × PatternRequest) :=
  [(Host.quiet, .new (lunForm "boot" 0)),
    (Host.quiet, .new (lunForm "data" 1)),
    (Host.quiet, .bind (sampleHash "cfg0") (some "/dev/vg12/root")),
    (Host.quiet, .bind (sampleHash "cfg1") (some "/dev/vg12/root"))]

theorem twoLuns_lunZeroRule :
    Guarded lunZeroGuard patternStep World.empty twoLuns ∧
      LunZeroRule (run patternStep World.empty (twoLuns.take 4)).patterns ∧
      ∀ host credentials, Configuration.dump host
        (run patternStep World.empty (twoLuns.take 4)).patterns credentials ≠
          .error Configuration.lunZeroError := by
  have hguarded : Guarded lunZeroGuard patternStep World.empty twoLuns := by
    decide +kernel
  exact ⟨hguarded, guarded_lunZeroRule hguarded 4⟩

/-- Unbinding the LUN 0 pattern of a volume with another enabled pattern is
accepted, and the configuration can no longer be written. -/
theorem unbind_breaks_lunZeroRule :
    ¬ LunZeroRule (run patternStep World.empty
      (twoLuns ++ [(Host.quiet, .unbind (sampleHash "cfg0"))])).patterns ∧
    Configuration.dump Host.quiet (run patternStep World.empty
      (twoLuns ++ [(Host.quiet, .unbind (sampleHash "cfg0"))])).patterns [] =
        .error Configuration.lunZeroError := by
  decide +kernel

end OpenSan.Controller
