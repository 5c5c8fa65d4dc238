import OpenSan.Scst.ExportedText

/-!
# Write-through devices

`Configuration.dump` writes a device for each exported pattern, with the
pattern's `write_through` line, but the LUN entries of a volume all lead to the
device that was written last for it.  The flags are those of the text as it
reads.
-/

namespace OpenSan.Scst.Configuration

open OpenSan.Foundation

variable {host : Host} {patterns : List AccessPattern}
  {credentials : List AuthCredential} {configuration : Configuration}

theorem describe_blocks
    (h : Exportable host.hostname (enabledPatterns host patterns))
    (hdescribe : describe host patterns credentials = .ok configuration) :
    configuration.devices = describeDevices 1 (enabledPatterns host patterns) ∧
      ∀ target ∈ configuration.targets, ∀ entry ∈ target.luns,
        ∃ item ∈ enabledPatterns host patterns,
          HasTarget host.hostname target.name item ∧
          entry.device = "fileio" ++ fileioNumber
            (describeFileios 1 (enabledPatterns host patterns) ∅) item.filename := by
  unfold describe at hdescribe
  cases henabled : enabledPatterns host patterns with
  | nil =>
      rw [henabled] at hdescribe
      obtain rfl := Except.ok.inj hdescribe
      simp [describeDevices]
  | cons item items =>
      rw [henabled] at h hdescribe
      obtain ⟨targets, hcollect, hcollected⟩ := collectTargets_collected h
      obtain ⟨blocks, hblocks, hall⟩ := describeTargets_forall₂ host credentials
        (describeFileios 1 (item :: items) ∅) (host.order.visit targets.entries)
        fun entry hentry => hcollected.zero_mem h (by simpa using hentry)
      simp only [hcollect, hblocks] at hdescribe
      obtain rfl := Except.ok.inj hdescribe
      refine ⟨rfl, fun target htarget entry hentry => ?_⟩
      obtain ⟨⟨name, luns⟩, hmem, hdescribed⟩ := block_entry hall htarget
      obtain ⟨hname, -, hluns⟩ := describeTarget_eq_ok hdescribed
      rw [hluns] at hentry
      obtain ⟨⟨lun, found⟩, hfound, rfl⟩ := List.mem_map.mp hentry
      rw [Order.mem_visit, ← AList.mem_lookup_iff] at hfound
      rw [Order.mem_visit, ← AList.mem_lookup_iff] at hmem
      obtain ⟨hin, hhas, -⟩ := hcollected.mem_luns hmem hfound
      exact ⟨found, hin, hname ▸ hhas, rfl⟩

/-- The device of each pattern's LUN entry has the pattern's flag. -/
def WriteThroughKept (hostname : Option String) (items : List Export)
    (configuration : Configuration) : Prop :=
  ∀ item ∈ items, ∀ target ∈ configuration.targets, HasTarget hostname target.name item →
    ∀ entry ∈ target.luns, entry.lun = toString item.pattern.lun →
      ∀ device ∈ configuration.devices, device.name = entry.device →
        device.writethrough = item.pattern.writethrough

def FlagsAgree (items : List Export) : Prop :=
  ∀ first ∈ items, ∀ second ∈ items, first.filename = second.filename →
    first.pattern.writethrough = second.pattern.writethrough

theorem writeThroughKept_iff
    (h : Exportable host.hostname (enabledPatterns host patterns))
    (hdescribe : describe host patterns credentials = .ok configuration)
    (hserves : Serves host.hostname (enabledPatterns host patterns) credentials
      configuration) :
    WriteThroughKept host.hostname (enabledPatterns host patterns) configuration ↔
      FlagsAgree (enabledPatterns host patterns) := by
  obtain ⟨hdevices, hblocks⟩ := describe_blocks h hdescribe
  constructor
  · intro hkept first hfirst second hsecond hvolume
    obtain ⟨target, htarget, hhas, entry, hentry, hlun, device, hdevice, hname, -⟩ :=
      hserves.lun_entry h hfirst
    obtain ⟨target', htarget', hhas', entry', hentry', hlun', device', hdevice', hname', -⟩ :=
      hserves.lun_entry h hsecond
    obtain rfl : target = target' := by
      refine List.inj_on_of_nodup_map hserves.targets_nodup htarget htarget' ?_
      rw [HasTarget, hvolume] at hhas
      exact Except.ok.inj (hhas.symm.trans hhas')
    -- both entries lead to the device that was written last
    obtain ⟨found, hfound, hfoundHas, hfoundDevice⟩ := hblocks target htarget entry hentry
    obtain ⟨found', hfound', hfoundHas', hfoundDevice'⟩ :=
      hblocks target htarget entry' hentry'
    have hsame : entry.device = entry'.device := by
      rw [hfoundDevice, hfoundDevice', h.sameVolume hfound hfound' hfoundHas hfoundHas']
    obtain rfl := hserves.device_unique hdevice hdevice'
      (hname.trans (hsame.trans hname'.symm))
    rw [← hkept first hfirst target htarget hhas entry hentry hlun device hdevice hname]
    exact hkept second hsecond target htarget hhas' entry' hentry' hlun' device hdevice hname'
  · intro hagree item hitem target htarget hhas entry hentry _ device hdevice hname
    obtain ⟨other, hother, hotherName, hfile⟩ :=
      hserves.devices target htarget item hitem hhas entry hentry
    obtain rfl := hserves.device_unique hother hdevice (hotherName.trans hname.symm)
    rw [hdevices] at hdevice
    obtain ⟨source, hsource, hsourceFile, hflag⟩ := mem_describeDevices hdevice
    rw [hflag]
    exact hagree source hsource item hitem (hsourceFile.symm.trans hfile)

theorem writeThroughKept_shown {hostname : Option String} {items : List Export} :
    WriteThroughKept hostname items (shown configuration) ↔
      WriteThroughKept hostname items configuration := by
  unfold WriteThroughKept shown
  refine forall₂_congr fun item _ => ?_
  rw [List.forall_mem_map]
  rfl

/-- The text reads as a configuration in which the LUN entry of each exported
pattern leads to devices of its volume, and these have the pattern's flag. -/
def WriteThroughShown (hostname : Option String) (items : List Export) (text : String) :
    Prop :=
  ∃ configuration, readText text = some configuration ∧
    (∀ item ∈ items, ∃ target ∈ configuration.targets, HasTarget hostname target.name item ∧
      ∃ entry ∈ target.luns, entry.lun = toString item.pattern.lun ∧
        ∃ device ∈ configuration.devices, device.name = entry.device ∧
          device.filename = item.filename) ∧
    WriteThroughKept hostname items configuration

theorem writeThroughShown_iff
    (h : Exportable host.hostname (enabledPatterns host patterns))
    (hdescribe : describe host patterns credentials = .ok configuration)
    (hserves : Serves host.hostname (enabledPatterns host patterns) credentials
      configuration)
    (husers : CredentialsOnOneLine host patterns credentials) :
    WriteThroughShown host.hostname (enabledPatterns host patterns) configuration.render ↔
      FlagsAgree (enabledPatterns host patterns) ∧
        FilenamesLegible (enabledPatterns host patterns) := by
  have hkept := writeThroughKept_iff h hdescribe hserves
  constructor
  · rintro ⟨read, hread, hleads, hflags⟩
    have hfiles : FilenamesLegible (enabledPatterns host patterns) := by
      intro item hitem
      obtain ⟨-, -, -, -, -, -, device, hdevice, -, hfile⟩ := hleads item hitem
      rw [← hfile]
      exact (readText_eq_some hread).1 device hdevice
    rw [readText_describe hdescribe hserves hfiles husers] at hread
    obtain rfl := Option.some.inj hread
    exact ⟨hkept.mp (writeThroughKept_shown.mp hflags), hfiles⟩
  · rintro ⟨hagree, hfiles⟩
    refine ⟨shown configuration, readText_describe hdescribe hserves hfiles husers,
      fun item hitem => ?_, writeThroughKept_shown.mpr (hkept.mpr hagree)⟩
    obtain ⟨target, htarget, hhas, hentry⟩ := hserves.lun_entry h hitem
    exact ⟨shownUsers target, List.mem_map.mpr ⟨target, htarget, rfl⟩, hhas, hentry⟩

theorem dump_writeThrough_iff (host : Host) (patterns : List AccessPattern)
    (credentials : List AuthCredential)
    (h : Exportable host.hostname (enabledPatterns host patterns)) :
    ∃ text devices, dump host patterns credentials = .ok (text, devices) ∧
      (CredentialsOnOneLine host patterns credentials →
        (WriteThroughShown host.hostname (enabledPatterns host patterns) text ↔
          FlagsAgree (enabledPatterns host patterns) ∧
            FilenamesLegible (enabledPatterns host patterns))) := by
  obtain ⟨configuration, hdescribe, hserves⟩ := describe_serves credentials h
  refine ⟨configuration.render, configuration.devices.map Device.name, ?_,
    writeThroughShown_iff h hdescribe hserves⟩
  rw [dump_eq_render, hdescribe]
  rfl

def twoFlags (first second : Bool) : List AccessPattern :=
  [⟨some "cfg0", "boot", .iscsi, 0, some "/dev/vg12/root", true, false, first⟩,
    ⟨some "cfg1", "data", .iscsi, 1, some "/dev/vg12/root", true, false, second⟩]

theorem twoFlags_kept : ∃ text devices,
    dump Host.quiet (twoFlags true true) (alice "correct horse") = .ok (text, devices) ∧
      WriteThroughShown Host.quiet.hostname
        (enabledPatterns Host.quiet (twoFlags true true)) text := by
  have h : Exportable Host.quiet.hostname
      (enabledPatterns Host.quiet (twoFlags true true)) := by
    refine ⟨named_of_isSome ?_, ?_, ?_, ?_⟩ <;> decide +kernel
  obtain ⟨text, devices, hdump, hshown⟩ :=
    dump_writeThrough_iff Host.quiet (twoFlags true true) (alice "correct horse") h
  refine ⟨text, devices, hdump, (hshown ?_).mpr ⟨?_, ?_⟩⟩
  · intro credential hmem _
    obtain rfl := List.mem_singleton.mp hmem
    decide +kernel
  · unfold FlagsAgree
    decide +kernel
  · unfold FilenamesLegible
    decide +kernel

/-- Only the first pattern has the flag, and both LUN entries lead to the second
device. -/
theorem twoFlags_not_kept :
    Exportable Host.quiet.hostname (enabledPatterns Host.quiet (twoFlags true false)) ∧
      ∃ text devices, dump Host.quiet (twoFlags true false) [] = .ok (text, devices) ∧
        ¬ WriteThroughShown Host.quiet.hostname
          (enabledPatterns Host.quiet (twoFlags true false)) text := by
  have h : Exportable Host.quiet.hostname
      (enabledPatterns Host.quiet (twoFlags true false)) := by
    refine ⟨named_of_isSome ?_, ?_, ?_, ?_⟩ <;> decide +kernel
  obtain ⟨configuration, hdescribe, hserves⟩ := describe_serves [] h
  refine ⟨h, configuration.render, configuration.devices.map Device.name, ?_, ?_⟩
  · rw [dump_eq_render, hdescribe]
    rfl
  · rw [writeThroughShown_iff h hdescribe hserves (by simp [CredentialsOnOneLine])]
    rintro ⟨hagree, -⟩
    revert hagree
    unfold FlagsAgree
    decide +kernel

end OpenSan.Scst.Configuration
