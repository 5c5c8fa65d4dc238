import Mathlib
import OpenSan.Scst.Configuration

/-!
# What the configuration exports

Under the conditions a well-kept store provides (target names tell the volumes
apart, the LUNs of one volume are distinct and one of them is LUN 0), the
tables of `Configuration.dump` are joined without loss: each volume has one
target, with its own credentials and one LUN entry per exported pattern.
-/

namespace OpenSan.Scst.Configuration

open OpenSan.Foundation

/-! ## Devices -/

theorem mem_describeDevices_name {start : Nat} {items : List Export}
    {device : Device} (h : device ∈ describeDevices start items) :
    ∃ counter, start ≤ counter ∧
      device.name = "fileio" ++ toString counter := by
  induction items generalizing start with
  | nil => simp [describeDevices] at h
  | cons item items ih =>
      rcases List.mem_cons.mp h with rfl | hrest
      · exact ⟨start, le_refl _, rfl⟩
      · obtain ⟨counter, hle, hname⟩ := ih hrest
        exact ⟨counter, by omega, hname⟩

theorem mem_describeDevices {start : Nat} {items : List Export} {device : Device}
    (h : device ∈ describeDevices start items) :
    ∃ item ∈ items, device.filename = item.filename ∧
      device.writethrough = item.pattern.writethrough := by
  induction items generalizing start with
  | nil => simp [describeDevices] at h
  | cons item items ih =>
      rcases List.mem_cons.mp h with rfl | hrest
      · exact ⟨item, List.mem_cons_self, rfl, rfl⟩
      · obtain ⟨other, hother, hsame⟩ := ih hrest
        exact ⟨other, List.mem_cons_of_mem item hother, hsame⟩

theorem describeDevices_names_nodup (start : Nat) (items : List Export) :
    ((describeDevices start items).map Device.name).Nodup := by
  induction items generalizing start with
  | nil => simp [describeDevices]
  | cons item items ih =>
      simp only [describeDevices, List.map_cons, List.nodup_cons]
      refine ⟨?_, ih (start + 1)⟩
      intro hmem
      obtain ⟨device, hdevice, hname⟩ := List.mem_map.mp hmem
      obtain ⟨counter, hle, hcounter⟩ := mem_describeDevices_name hdevice
      rw [hcounter, String.append_right_inj] at hname
      simp only [Nat.toString_eq_repr] at hname
      have := Nat.repr_injective hname
      omega

theorem describeFileios_lookup (filename : String) (start : Nat)
    (items : List Export) (fileios : Table String Nat) :
    ((∃ item ∈ items, item.filename = filename) →
      ∃ counter, (describeFileios start items fileios).lookup filename =
          some counter ∧
        ∃ device ∈ describeDevices start items,
          device.name = "fileio" ++ toString counter ∧
          device.filename = filename) ∧
    ((∀ item ∈ items, item.filename ≠ filename) →
      (describeFileios start items fileios).lookup filename =
        fileios.lookup filename) := by
  induction items generalizing start fileios with
  | nil => simp [describeFileios]
  | cons item items ih =>
      obtain ⟨hlater, hnever⟩ :=
        ih (start + 1) (fileios.insert item.filename start)
      by_cases hrest : ∃ other ∈ items, other.filename = filename
      · constructor
        · intro _
          obtain ⟨counter, hlookup, device, hdevice, hnames⟩ := hlater hrest
          exact ⟨counter, hlookup, device, by simp [describeDevices, hdevice],
            hnames⟩
        · intro hall
          obtain ⟨other, hother, heq⟩ := hrest
          exact absurd heq (hall other (by simp [hother]))
      · -- the volume occurs last at `item`, or not at all
        have hnone := hnever (by simpa using hrest)
        constructor
        · rintro ⟨other, hother, heq⟩
          rcases List.mem_cons.mp hother with rfl | hmem
          · refine ⟨start, ?_, ⟨"fileio" ++ toString start, other.filename,
              other.pattern.writethrough⟩, by simp [describeDevices], rfl, heq⟩
            simp only [describeFileios]
            rw [hnone, ← heq, AList.lookup_insert]
          · exact absurd ⟨other, hmem, heq⟩ hrest
        · intro hall
          simp only [describeFileios]
          rw [hnone, AList.lookup_insert_ne]
          exact fun h => hall item (by simp) h.symm

/-! ## Targets -/

def HasTarget (hostname : Option String) (target : String) (item : Export) :
    Prop :=
  iqn hostname item.filename = .ok target

instance (hostname : Option String) (target : String) (item : Export) :
    Decidable (HasTarget hostname target item) := by
  unfold HasTarget
  infer_instance

def lunEntry (item : Export) : Sigma fun _ : String => Export :=
  ⟨toString item.pattern.lun, item⟩

structure Collected (hostname : Option String) (done : List Export)
    (targets : Table String Luns) : Prop where
  mem_iff : ∀ target, target ∈ targets ↔
    ∃ item ∈ done, HasTarget hostname target item
  luns : ∀ target luns, targets.lookup target = some luns →
    luns.entries.Perm
      ((done.filter (HasTarget hostname target ·)).map lunEntry)

theorem collected_nil (hostname : Option String) :
    Collected hostname [] ∅ where
  mem_iff := by simp
  luns := by simp

theorem toString_int_inj {a b : Int} : toString a = toString b ↔ a = b := by
  constructor
  · intro h
    exact Int.repr_injective h
  · rintro rfl
    rfl

theorem Collected.add {hostname : Option String} {done : List Export}
    {targets : Table String Luns} (h : Collected hostname done targets)
    {item : Export} {target : String} (htarget : HasTarget hostname target item)
    (hfresh : ∀ other ∈ done, HasTarget hostname target other →
      other.pattern.lun ≠ item.pattern.lun) :
    ∃ targets', addTarget hostname targets item = .ok targets' ∧
      Collected hostname (done ++ [item]) targets' := by
  have hiqn : iqn hostname item.filename = .ok target := htarget
  refine ⟨_, by simp only [addTarget, hiqn]; rfl, ?_, ?_⟩
  · intro name
    rw [Table.update, AList.mem_insert, h.mem_iff]
    constructor
    · rintro (rfl | ⟨other, hother, hname⟩)
      · exact ⟨item, by simp, htarget⟩
      · exact ⟨other, by simp [hother], hname⟩
    · rintro ⟨other, hother, hname⟩
      rcases List.mem_append.mp hother with hdone | hitem
      · exact .inr ⟨other, hdone, hname⟩
      · have : other = item := by simpa using hitem
        subst this
        have : (Except.ok name : Except Error String) = .ok target :=
          hname.symm.trans htarget
        exact .inl (Except.ok.inj this)
  · intro name luns hlookup
    rw [Table.update] at hlookup
    by_cases hname : name = target
    · subst hname
      rw [AList.lookup_insert] at hlookup
      cases hlookup
      -- the LUN table of this target so far, empty if there is none yet
      have hold : ((targets.lookup name).getD ∅).entries.Perm
          ((done.filter (HasTarget hostname name ·)).map lunEntry) := by
        cases htable : targets.lookup name with
        | some luns => simpa using h.luns name luns htable
        | none =>
            have hnone : done.filter (HasTarget hostname name ·) = [] := by
              rw [List.filter_eq_nil_iff]
              intro other hother hhas
              have hmem := (h.mem_iff name).mpr ⟨other, hother, by simpa using hhas⟩
              exact AList.lookup_eq_none.mp htable hmem
            simp [hnone]
      have hkey : toString item.pattern.lun ∉
          (targets.lookup name).getD ∅ := by
        rw [AList.mem_keys, AList.keys, List.mem_keys]
        rintro ⟨other, hmem⟩
        have hmap := hold.mem_iff.mp hmem
        obtain ⟨found, hfound, hentry⟩ := List.mem_map.mp hmap
        obtain ⟨hdone, hhas⟩ := List.mem_filter.mp hfound
        have hlun : toString found.pattern.lun = toString item.pattern.lun :=
          congrArg Sigma.fst hentry
        exact hfresh found hdone (by simpa using hhas)
          (toString_int_inj.mp hlun)
      rw [AList.entries_insert_of_notMem hkey]
      have hself : decide (HasTarget hostname name item) = true := by
        simpa using htarget
      rw [List.filter_append, List.map_append]
      simp only [List.filter_cons, hself, List.filter_nil, if_true,
        List.map_cons, List.map_nil]
      exact (hold.cons _).trans (List.perm_append_singleton _ _).symm
    · rw [AList.lookup_insert_ne hname] at hlookup
      have hother : decide (HasTarget hostname name item) = false := by
        simp only [decide_eq_false_iff_not, HasTarget, hiqn]
        intro heq
        exact hname (Except.ok.inj heq).symm
      rw [List.filter_append]
      simpa [hother] using h.luns name luns hlookup

/-- The conditions under which the tables are joined without loss. -/
structure Exportable (hostname : Option String) (items : List Export) : Prop where
  named : ∀ item ∈ items, ∃ target, iqn hostname item.filename = .ok target
  separated : ∀ first ∈ items, ∀ second ∈ items,
    iqn hostname first.filename = iqn hostname second.filename →
    first.filename = second.filename
  luns : items.Pairwise fun first second =>
    first.filename = second.filename →
      first.pattern.lun ≠ second.pattern.lun
  lunZero : ∀ item ∈ items, ∃ zero ∈ items,
    zero.filename = item.filename ∧ zero.pattern.lun = 0

theorem named_of_isSome {hostname : Option String} {items : List Export}
    (h : ∀ item ∈ items, (iqn hostname item.filename).toOption.isSome = true) :
    ∀ item ∈ items, ∃ target, iqn hostname item.filename = .ok target := by
  intro item hitem
  have hsome := h item hitem
  cases hiqn : iqn hostname item.filename with
  | error e => simp [hiqn, Except.toOption] at hsome
  | ok target => exact ⟨target, rfl⟩

theorem Exportable.sameVolume {hostname : Option String} {items : List Export}
    (h : Exportable hostname items) {first second : Export}
    (hfirst : first ∈ items) (hsecond : second ∈ items) {target : String}
    (hone : HasTarget hostname target first)
    (htwo : HasTarget hostname target second) :
    first.filename = second.filename :=
  h.separated first hfirst second hsecond (hone.trans htwo.symm)

private theorem collectTargets_from {hostname : Option String}
    {items : List Export} (h : Exportable hostname items)
    {done rest : List Export} (hsplit : items = done ++ rest)
    {targets : Table String Luns} (hdone : Collected hostname done targets) :
    ∃ targets', collectTargets hostname rest targets = .ok targets' ∧
      Collected hostname items targets' := by
  induction rest generalizing done targets with
  | nil => exact ⟨targets, rfl, by simpa [hsplit] using hdone⟩
  | cons item rest ih =>
      have hitem : item ∈ items := by simp [hsplit]
      obtain ⟨target, htarget⟩ := h.named item hitem
      have hluns := h.luns
      rw [hsplit, List.pairwise_append] at hluns
      obtain ⟨targets', hadd, hnext⟩ := hdone.add htarget (by
        intro other hother hhas
        have hvolume := h.sameVolume (by simp [hsplit, hother]) hitem hhas htarget
        exact hluns.2.2 other hother item (by simp) hvolume)
      obtain ⟨final, hcollect, hfinal⟩ := ih (by simp [hsplit]) hnext
      exact ⟨final, by simp only [collectTargets, hadd]; exact hcollect, hfinal⟩

theorem collectTargets_collected {hostname : Option String}
    {items : List Export} (h : Exportable hostname items) :
    ∃ targets, collectTargets hostname items ∅ = .ok targets ∧
      Collected hostname items targets :=
  collectTargets_from h rfl (collected_nil hostname)

theorem describeTargets_forall₂ (host : Host) (credentials : List AuthCredential)
    (fileios : Table String Nat) (entries : List (Sigma fun _ : String => Luns))
    (hzero : ∀ entry ∈ entries, "0" ∈ entry.2) :
    ∃ blocks,
      describeTargets host credentials fileios entries = .ok blocks ∧
      List.Forall₂ (fun entry block =>
        describeTarget host credentials fileios entry.1 entry.2 = .ok block)
        entries blocks := by
  induction entries with
  | nil => exact ⟨[], rfl, .nil⟩
  | cons entry entries ih =>
      obtain ⟨blocks, hblocks, hall⟩ := ih (fun e he => hzero e (by simp [he]))
      have hmem := hzero entry (by simp)
      rw [← AList.lookup_isSome, Option.isSome_iff_exists] at hmem
      obtain ⟨first, hfirst⟩ := hmem
      obtain ⟨block, hblock⟩ : ∃ block, describeTarget host credentials fileios
          entry.1 entry.2 = .ok block := ⟨_, by simp only [describeTarget, hfirst]; rfl⟩
      exact ⟨block :: blocks, by simp only [describeTargets, hblock, hblocks],
        .cons hblock hall⟩

/-! ## The exported configuration -/

/-- The configuration serves exactly the exported patterns and credentials. -/
structure Serves (hostname : Option String) (items : List Export)
    (credentials : List AuthCredential) (configuration : Configuration) :
    Prop where
  targets_nodup : (configuration.targets.map Target.name).Nodup
  target_iff : ∀ name, name ∈ configuration.targets.map Target.name ↔
    ∃ item ∈ items, HasTarget hostname name item
  users : ∀ target ∈ configuration.targets, ∀ item ∈ items,
    HasTarget hostname target.name item →
      target.users = (listFor credentials item.filename).map fun credential =>
        (credential.username, credential.password)
  luns : ∀ target ∈ configuration.targets, ∀ item ∈ items,
    HasTarget hostname target.name item →
      (target.luns.map fun entry => (entry.lun, entry.readOnly)).Perm
        ((items.filter (·.filename == item.filename)).map fun other =>
          (toString other.pattern.lun, other.pattern.readonly))
  devices : ∀ target ∈ configuration.targets, ∀ item ∈ items,
    HasTarget hostname target.name item →
      ∀ entry ∈ target.luns, ∃ device ∈ configuration.devices,
        device.name = entry.device ∧ device.filename = item.filename
  devices_nodup : (configuration.devices.map Device.name).Nodup

section Serving

variable {host : Host} {items : List Export} {credentials : List AuthCredential}
  {targets : Table String Luns}

theorem Collected.mem_luns (hcollected : Collected host.hostname items targets)
    {name : String} {luns : Luns} (hlookup : targets.lookup name = some luns)
    {lun : String} {found : Export} (hfound : luns.lookup lun = some found) :
    found ∈ items ∧ HasTarget host.hostname name found ∧
      lun = toString found.pattern.lun := by
  have hmem : (⟨lun, found⟩ : Sigma fun _ : String => Export) ∈ luns.entries :=
    AList.mem_lookup_iff.mp hfound
  have hmap := (hcollected.luns name luns hlookup).mem_iff.mp hmem
  obtain ⟨item, hitem, hentry⟩ := List.mem_map.mp hmap
  obtain ⟨hin, hhas⟩ := List.mem_filter.mp hitem
  cases hentry
  exact ⟨hin, by simpa using hhas, rfl⟩

theorem Collected.zero_mem (h : Exportable host.hostname items)
    (hcollected : Collected host.hostname items targets)
    {entry : Sigma fun _ : String => Luns} (hentry : entry ∈ targets.entries) :
    "0" ∈ entry.2 := by
  have hlookup : targets.lookup entry.1 = some entry.2 :=
    AList.mem_lookup_iff.mpr hentry
  have hmem : entry.1 ∈ targets := by
    rw [← AList.lookup_isSome, hlookup]
    rfl
  obtain ⟨item, hitem, hhas⟩ := (hcollected.mem_iff entry.1).mp hmem
  obtain ⟨zero, hzero, hvolume, hlun⟩ := h.lunZero item hitem
  have hzeroHas : HasTarget host.hostname entry.1 zero := by
    rw [HasTarget, hvolume]
    exact hhas
  have hin : lunEntry zero ∈ entry.2.entries := by
    rw [(hcollected.luns entry.1 entry.2 hlookup).mem_iff]
    exact List.mem_map.mpr
      ⟨zero, List.mem_filter.mpr ⟨hzero, by simpa using hzeroHas⟩, rfl⟩
  have hkey : lunEntry zero = ⟨"0", zero⟩ := by
    simp only [lunEntry, hlun]
    rfl
  rw [hkey] at hin
  rw [AList.mem_keys, AList.keys, List.mem_keys]
  exact ⟨zero, hin⟩

private theorem filter_hasTarget_eq (h : Exportable host.hostname items)
    {item : Export} (hitem : item ∈ items) {name : String}
    (hhas : HasTarget host.hostname name item) :
    items.filter (HasTarget host.hostname name ·) =
      items.filter (·.filename == item.filename) := by
  apply List.filter_congr
  intro other hother
  rw [beq_eq_decide, decide_eq_decide]
  constructor
  · intro hboth
    exact h.sameVolume hother hitem hboth hhas
  · intro hvolume
    rw [HasTarget, hvolume]
    exact hhas

theorem describeTarget_eq_ok {fileios : Table String Nat} {name : String}
    {luns : Luns} {block : Target}
    (h : describeTarget host credentials fileios name luns = .ok block) :
    block.name = name ∧
      (∃ first, luns.lookup "0" = some first ∧
        block.users = (listFor credentials first.filename).map fun credential =>
          (credential.username, credential.password)) ∧
      block.luns = (host.order.visit luns.entries).map (describeLun fileios) := by
  unfold describeTarget at h
  split at h
  · cases h
  · rename_i first hfirst
    cases h
    exact ⟨rfl, ⟨first, hfirst, rfl⟩, rfl⟩

private theorem blocks_names {fileios : Table String Nat}
    {entries : List (Sigma fun _ : String => Luns)} {blocks : List Target}
    (h : List.Forall₂ (fun entry block =>
      describeTarget host credentials fileios entry.1 entry.2 = .ok block)
      entries blocks) :
    blocks.map Target.name = entries.map Sigma.fst := by
  induction h with
  | nil => rfl
  | cons hblock _ ih => simp [ih, (describeTarget_eq_ok hblock).1]

theorem block_entry {fileios : Table String Nat}
    {entries : List (Sigma fun _ : String => Luns)} {blocks : List Target}
    (h : List.Forall₂ (fun entry block =>
      describeTarget host credentials fileios entry.1 entry.2 = .ok block)
      entries blocks) {block : Target} (hmem : block ∈ blocks) :
    ∃ entry ∈ entries,
      describeTarget host credentials fileios entry.1 entry.2 = .ok block := by
  induction h with
  | nil => simp at hmem
  | cons hblock _ ih =>
      rcases List.mem_cons.mp hmem with rfl | hrest
      · exact ⟨_, by simp, hblock⟩
      · obtain ⟨entry, hentry, hdescribed⟩ := ih hrest
        exact ⟨entry, by simp [hentry], hdescribed⟩

private theorem serves_blocks (h : Exportable host.hostname items)
    (hcollected : Collected host.hostname items targets) {blocks : List Target}
    (hblocks : List.Forall₂ (fun entry block =>
      describeTarget host credentials (describeFileios 1 items ∅)
        entry.1 entry.2 = .ok block)
      (host.order.visit targets.entries) blocks) :
    Serves host.hostname items credentials
      ⟨describeDevices 1 items, blocks⟩ := by
  have hnames : (blocks.map Target.name).Perm targets.keys := by
    rw [blocks_names hblocks]
    exact (host.order.perm targets.entries).map _
  -- the entry of the target table behind a block, and a pattern's share in it
  have hentry : ∀ block ∈ blocks, ∃ luns, targets.lookup block.name = some luns ∧
      describeTarget host credentials (describeFileios 1 items ∅)
        block.name luns = .ok block := by
    intro block hblock
    obtain ⟨⟨name, luns⟩, hmem, hdescribed⟩ := block_entry hblocks hblock
    have hname := (describeTarget_eq_ok hdescribed).1
    rw [Order.mem_visit] at hmem
    subst hname
    exact ⟨luns, AList.mem_lookup_iff.mpr hmem, hdescribed⟩
  refine ⟨?_, ?_, ?_, ?_, ?_, describeDevices_names_nodup 1 items⟩
  · exact hnames.nodup_iff.mpr targets.keys_nodup
  · intro name
    rw [hnames.mem_iff, ← AList.mem_keys, hcollected.mem_iff]
  · intro block hblock item hitem hhas
    obtain ⟨luns, hlookup, hdescribed⟩ := hentry block hblock
    obtain ⟨-, ⟨first, hfirst, husers⟩, -⟩ := describeTarget_eq_ok hdescribed
    obtain ⟨hin, hfirstHas, -⟩ := hcollected.mem_luns hlookup hfirst
    rw [husers, h.sameVolume hin hitem hfirstHas hhas]
  · intro block hblock item hitem hhas
    obtain ⟨luns, hlookup, hdescribed⟩ := hentry block hblock
    obtain ⟨-, -, hluns⟩ := describeTarget_eq_ok hdescribed
    rw [hluns, List.map_map, ← filter_hasTarget_eq h hitem hhas]
    have hperm := (host.order.perm luns.entries).trans
      (hcollected.luns block.name luns hlookup)
    refine (hperm.map _).trans ?_
    rw [List.map_map]
    exact .refl _
  · intro block hblock item hitem hhas entry hmem
    obtain ⟨luns, hlookup, hdescribed⟩ := hentry block hblock
    obtain ⟨-, -, hluns⟩ := describeTarget_eq_ok hdescribed
    rw [hluns] at hmem
    obtain ⟨⟨lun, found⟩, hfound, rfl⟩ := List.mem_map.mp hmem
    rw [Order.mem_visit, ← AList.mem_lookup_iff] at hfound
    obtain ⟨hin, hfoundHas, -⟩ := hcollected.mem_luns hlookup hfound
    have hvolume := h.sameVolume hin hitem hfoundHas hhas
    obtain ⟨counter, hcounter, device, hdevice, hname, hfile⟩ :=
      (describeFileios_lookup found.filename 1 items ∅).1 ⟨found, hin, rfl⟩
    refine ⟨device, hdevice, ?_, hfile.trans hvolume⟩
    simp [describeLun, fileioNumber, hcounter, hname]

theorem describe_serves {patterns : List AccessPattern}
    (credentials : List AuthCredential)
    (h : Exportable host.hostname (enabledPatterns host patterns)) :
    ∃ configuration, describe host patterns credentials = .ok configuration ∧
      Serves host.hostname (enabledPatterns host patterns) credentials
        configuration := by
  unfold describe
  cases henabled : enabledPatterns host patterns with
  | nil =>
      refine ⟨⟨[], []⟩, rfl, ?_⟩
      constructor <;> simp
  | cons item items =>
      rw [henabled] at h
      obtain ⟨targets, hcollect, hcollected⟩ := collectTargets_collected h
      obtain ⟨blocks, hdescribe, hblocks⟩ := describeTargets_forall₂ host
        credentials (describeFileios 1 (item :: items) ∅)
        (host.order.visit targets.entries) (by
          intro entry hmem
          exact hcollected.zero_mem h (by simpa using hmem))
      exact ⟨_, by simp only [hcollect, hdescribe], serves_blocks h hcollected hblocks⟩

end Serving

section Served

variable {hostname : Option String} {items : List Export} {credentials : List AuthCredential}
  {configuration : Configuration}
  (hserves : Serves hostname items credentials configuration)

include hserves

theorem Serves.lun_entry (h : Exportable hostname items) {item : Export}
    (hitem : item ∈ items) :
    ∃ target ∈ configuration.targets, HasTarget hostname target.name item ∧
      ∃ entry ∈ target.luns, entry.lun = toString item.pattern.lun ∧
        ∃ device ∈ configuration.devices, device.name = entry.device ∧
          device.filename = item.filename := by
  obtain ⟨name, hname⟩ := h.named item hitem
  obtain ⟨target, htarget, rfl⟩ :=
    List.mem_map.mp ((hserves.target_iff name).mpr ⟨item, hitem, hname⟩)
  have hlun : (toString item.pattern.lun, item.pattern.readonly) ∈
      target.luns.map fun entry => (entry.lun, entry.readOnly) := by
    rw [(hserves.luns target htarget item hitem hname).mem_iff]
    exact List.mem_map.mpr ⟨item, List.mem_filter.mpr ⟨hitem, by simp⟩, rfl⟩
  obtain ⟨entry, hentry, heq⟩ := List.mem_map.mp hlun
  obtain ⟨device, hdevice, hnames⟩ :=
    hserves.devices target htarget item hitem hname entry hentry
  exact ⟨target, htarget, hname, entry, hentry, congrArg Prod.fst heq, device, hdevice,
    hnames⟩

theorem Serves.device_unique {first second : Device}
    (hfirst : first ∈ configuration.devices) (hsecond : second ∈ configuration.devices)
    (hname : first.name = second.name) : first = second :=
  List.inj_on_of_nodup_map hserves.devices_nodup hfirst hsecond hname

end Served

end OpenSan.Scst.Configuration
