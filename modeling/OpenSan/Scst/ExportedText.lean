import OpenSan.Scst.Reading

/-!
# What the text exports

The text of `Configuration.dump` shows the exported patterns and the credentials
of their volumes as long as no password ends the quoted string it stands in and
no file name ends its line or opens a block.
-/

namespace OpenSan.Scst.Configuration

open OpenSan.Foundation

/-! ## Names -/

theorem plain_digits (n : Nat) : Plain (toString n).toList := by
  have hdigits : ∀ c ∈ (toString n).toList, c.isDigit = true := by
    intro c hc
    rw [Nat.toString_eq_ofList_toDigits, String.toList_ofList] at hc
    exact Nat.isDigit_of_mem_toDigits (by omega) (by omega) hc
  refine ⟨⟨?_, fun hspace => absurd (hdigits _ hspace) (by decide)⟩,
    fun hnewline => absurd (hdigits _ hnewline) (by decide)⟩
  rw [Nat.toString_eq_ofList_toDigits, String.toList_ofList]
  exact Nat.toDigits_ne_nil

theorem plain_integer (n : Int) : Plain (toString n).toList := by
  cases n with
  | ofNat n => exact plain_digits n
  | negSucc n =>
      have htext : toString (Int.negSucc n) = "-" ++ toString (n + 1) := rfl
      rw [htext, String.toList_append]
      exact .append (by decide) (plain_digits (n + 1))

theorem plain_iqn {hostname : Option String} {filename target : String}
    (h : iqn hostname filename = .ok target) : Plain target.toList := by
  have hstrip : ∀ text : List Char, text ≠ [] → Plain (stripUnallowedCharacters text) := by
    intro text htext
    have hallowed : ∀ c ∈ stripUnallowedCharacters text, iqnCharacter c = true := by
      intro c hc
      obtain ⟨d, -, rfl⟩ := List.mem_map.mp hc
      split
      · assumption
      · decide
    exact ⟨⟨by simpa [stripUnallowedCharacters] using htext,
      fun hspace => absurd (hallowed _ hspace) (by decide)⟩,
      fun hnewline => absurd (hallowed _ hnewline) (by decide)⟩
  unfold iqn at h
  split at h
  · cases h
  · split at h
    · obtain rfl := Except.ok.inj h
      rw [String.toList_ofList]
      exact hstrip _ (by simp)
    · cases h

/-! ## The configuration written -/

/-- No name of an exported file ends a line or opens a block. -/
def FilenamesLegible (items : List Export) : Prop :=
  ∀ item ∈ items, OneLine item.filename.toList

/-- No credential that is written out ends a line. -/
def CredentialsOnOneLine (host : Host) (patterns : List AccessPattern)
    (credentials : List AuthCredential) : Prop :=
  ∀ credential ∈ credentials, Emitted host patterns credential.filename →
    '\n' ∉ credential.username.toList ∧ '\n' ∉ credential.password.toList

section Written

variable {host : Host} {patterns : List AccessPattern} {credentials : List AuthCredential}
  {configuration : Configuration}

theorem lastZero_mem {hostname : Option String} {target : String} {items : List Export}
    {item : Export} (h : lastZero hostname target items = some item) :
    item ∈ items ∧ HasTarget hostname target item := by
  induction items with
  | nil => cases h
  | cons other items ih =>
      rw [lastZero] at h
      rcases Option.or_eq_some_iff.mp h with hlater | ⟨-, hhere⟩
      · exact ⟨List.mem_cons_of_mem _ (ih hlater).1, (ih hlater).2⟩
      · split at hhere
        · rename_i hzero
          obtain rfl := Option.some.inj hhere
          exact ⟨List.mem_cons_self, hzero.1⟩
        · cases hhere

theorem describe_legible
    (hdescribe : describe host patterns credentials = .ok configuration)
    (hserves : Serves host.hostname (enabledPatterns host patterns) credentials configuration)
    (hfiles : FilenamesLegible (enabledPatterns host patterns))
    (husers : CredentialsOnOneLine host patterns credentials) : Legible configuration := by
  obtain ⟨-, -, -, hdevices⟩ := describe_eq_ok hdescribe
  have hplain : ∀ device ∈ configuration.devices, Plain device.name.toList := by
    intro device hdevice
    rw [hdevices] at hdevice
    obtain ⟨counter, -, hname⟩ := mem_describeDevices_name hdevice
    rw [hname, String.toList_append]
    exact .append (by decide) (plain_digits counter)
  have hitem : ∀ target ∈ configuration.targets, ∃ item ∈ enabledPatterns host patterns,
      HasTarget host.hostname target.name item := fun target htarget =>
    (hserves.target_iff target.name).mp (List.mem_map.mpr ⟨target, htarget, rfl⟩)
  constructor
  · intro device hdevice
    refine ⟨hplain device hdevice, ?_⟩
    rw [hdevices] at hdevice
    obtain ⟨item, hin, hfile, -⟩ := mem_describeDevices hdevice
    rw [hfile]
    exact hfiles item hin
  · intro target htarget
    obtain ⟨item, -, hhas⟩ := hitem target htarget
    exact plain_iqn hhas
  · intro target htarget entry hentry
    obtain ⟨item, hin, hhas⟩ := hitem target htarget
    constructor
    · have hmem : (entry.lun, entry.readOnly) ∈
          target.luns.map fun other => (other.lun, other.readOnly) :=
        List.mem_map.mpr ⟨entry, hentry, rfl⟩
      rw [(hserves.luns target htarget item hin hhas).mem_iff] at hmem
      obtain ⟨other, -, hlun⟩ := List.mem_map.mp hmem
      have hname : toString other.pattern.lun = entry.lun := congrArg Prod.fst hlun
      rw [← hname]
      exact plain_integer other.pattern.lun
    · obtain ⟨device, hdevice, hname, -⟩ :=
        hserves.devices target htarget item hin hhas entry hentry
      rw [← hname]
      exact hplain device hdevice
  · intro target htarget user huser
    obtain ⟨credential, hmem, hemitted, rfl⟩ :=
      (mem_users_iff hdescribe).mp ⟨target, htarget, huser⟩
    exact husers credential hmem hemitted

theorem describe_empty (hdescribe : describe host patterns credentials = .ok configuration)
    (hserves : Serves host.hostname (enabledPatterns host patterns) credentials configuration)
    (hnone : configuration.devices = []) : configuration.targets = [] := by
  obtain ⟨-, -, -, hdevices⟩ := describe_eq_ok hdescribe
  rw [List.eq_nil_iff_forall_not_mem]
  intro target htarget
  obtain ⟨item, hitem, -⟩ :=
    (hserves.target_iff target.name).mp (List.mem_map.mpr ⟨target, htarget, rfl⟩)
  rw [hnone] at hdevices
  cases hitems : enabledPatterns host patterns with
  | nil => simp [hitems] at hitem
  | cons first items => simp [hitems, describeDevices] at hdevices

theorem readText_describe
    (hdescribe : describe host patterns credentials = .ok configuration)
    (hserves : Serves host.hostname (enabledPatterns host patterns) credentials configuration)
    (hfiles : FilenamesLegible (enabledPatterns host patterns))
    (husers : CredentialsOnOneLine host patterns credentials) :
    readText configuration.render = some (shown configuration) :=
  readText_render (describe_legible hdescribe hserves hfiles husers)
    (describe_empty hdescribe hserves)

theorem Accepted.noSpace {credential : AuthCredential} (h : Accepted credential) :
    ' ' ∉ credential.username.toList := by
  have hvalid : AuthCredential.usernameIsValid credential.username = true := by
    by_contra hno
    rw [Accepted, AuthCredential.new] at h
    simp only [hno] at h
    cases h
  have hcharacters := ((Pattern.anchored_plus_finish _ _).mp hvalid).2
  exact fun hspace => absurd (hcharacters _ hspace) (by decide)

theorem shown_eq_self (haccepted : ∀ credential ∈ credentials, Accepted credential)
    (hdescribe : describe host patterns credentials = .ok configuration)
    (hpasswords : PasswordsQuotable host patterns credentials) :
    shown configuration = configuration := by
  have husers : ∀ target ∈ configuration.targets, shownUsers target = target := by
    intro target htarget
    have hall : target.users.filterMap (fun user => quotedPair (userValue user)) =
        target.users.filterMap some := by
      refine List.filterMap_congr fun user huser => ?_
      obtain ⟨credential, hmem, hemitted, rfl⟩ :=
        (mem_users_iff hdescribe).mp ⟨target, htarget, huser⟩
      exact quotedPair_userValue (haccepted credential hmem).noSpace
        (haccepted credential hmem).quotable.1 (hpasswords credential hmem hemitted).1
    rw [shownUsers, hall, List.filterMap_some]
  rw [shown, List.map_congr_left husers, List.map_id']

theorem Serves.legible
    (h : Exportable host.hostname (enabledPatterns host patterns)) {text : String}
    (hread : readText text = some configuration)
    (hserves : Serves host.hostname (enabledPatterns host patterns) credentials configuration) :
    FilenamesLegible (enabledPatterns host patterns) ∧
      PasswordsQuotable host patterns credentials := by
  obtain ⟨hfiles, husers⟩ := readText_eq_some hread
  constructor
  · intro item hitem
    obtain ⟨-, -, -, -, -, -, device, hdevice, -, hfile⟩ := hserves.lun_entry h hitem
    rw [← hfile]
    exact hfiles device hdevice
  · rintro credential hmem ⟨name, item, hzero, hfile⟩
    obtain ⟨hitem, hhas⟩ := lastZero_mem hzero
    obtain ⟨target, htarget, rfl⟩ :=
      List.mem_map.mp ((hserves.target_iff name).mpr ⟨item, hitem, hhas⟩)
    refine husers target htarget (credential.username, credential.password) ?_
    rw [hserves.users target htarget item hitem hhas]
    exact List.mem_map.mpr
      ⟨credential, List.mem_filter.mpr ⟨hmem, beq_iff_eq.mpr hfile.symm⟩, rfl⟩

end Written

/--
The text written for scstadmin reads as one target per exported volume, with
that volume's credentials and one LUN entry per exported pattern of it, and
pairwise distinct devices, exactly when the names and passwords are legible.
-/
theorem dump_shown_iff (host : Host) (patterns : List AccessPattern)
    (credentials : List AuthCredential)
    (h : Exportable host.hostname (enabledPatterns host patterns))
    (haccepted : ∀ credential ∈ credentials, Accepted credential) :
    ∃ text devices, dump host patterns credentials = .ok (text, devices) ∧
      ((∃ configuration, readText text = some configuration ∧
          Serves host.hostname (enabledPatterns host patterns) credentials configuration) ↔
        FilenamesLegible (enabledPatterns host patterns) ∧
          PasswordsQuotable host patterns credentials) := by
  obtain ⟨configuration, hdescribe, hserves⟩ := describe_serves credentials h
  refine ⟨configuration.render, configuration.devices.map Device.name, ?_, ?_⟩
  · rw [dump_eq_render, hdescribe]
    rfl
  · constructor
    · rintro ⟨read, hread, hshown⟩
      exact hshown.legible h hread
    · rintro ⟨hfiles, hpasswords⟩
      have husers : CredentialsOnOneLine host patterns credentials :=
        fun credential hmem hemitted => ⟨(haccepted credential hmem).quotable.2,
          (hpasswords credential hmem hemitted).2⟩
      refine ⟨configuration, ?_, hserves⟩
      rw [readText_describe hdescribe hserves hfiles husers,
        shown_eq_self haccepted hdescribe hpasswords]

def samplePatterns : List AccessPattern :=
  [⟨some "cfg0", "boot", .iscsi, 0, some "/dev/vg12/root", true, true, false⟩,
    ⟨some "cfg1", "data", .iscsi, 1, some "/dev/vg12/root", true, false, true⟩,
    ⟨some "cfg2", "spare", .iscsi, 1, some "/dev/vg12/home", false, false, false⟩,
    ⟨some "cfg3", "home", .iscsi, 0, some "/dev/vg12/home", true, false, false⟩]

def sampleCredentials : List AuthCredential :=
  [⟨some "cfg4", "alice", "correct horse", "/dev/vg12/root"⟩,
    ⟨some "cfg5", "bob", "battery staple", "/dev/vg12/home"⟩]

theorem samplePatterns_shown :
    ∃ text devices configuration,
      dump Host.quiet samplePatterns sampleCredentials = .ok (text, devices) ∧
        readText text = some configuration ∧
        Serves Host.quiet.hostname (enabledPatterns Host.quiet samplePatterns)
          sampleCredentials configuration := by
  have h : Exportable Host.quiet.hostname
      (enabledPatterns Host.quiet samplePatterns) := by
    refine ⟨named_of_isSome ?_, ?_, ?_, ?_⟩ <;> decide +kernel
  have haccepted : ∀ credential ∈ sampleCredentials, Accepted credential := by
    unfold Accepted
    decide +kernel
  obtain ⟨text, devices, hdump, hshown⟩ :=
    dump_shown_iff Host.quiet samplePatterns sampleCredentials h haccepted
  have hfiles : FilenamesLegible (enabledPatterns Host.quiet samplePatterns) := by
    unfold FilenamesLegible
    decide +kernel
  have hpasswords : ∀ credential ∈ sampleCredentials, Quotable credential.password := by
    unfold Quotable
    decide +kernel
  obtain ⟨configuration, hread, hserves⟩ :=
    hshown.mpr ⟨hfiles, fun credential hmem _ => hpasswords credential hmem⟩
  exact ⟨text, devices, configuration, hdump, hread, hserves⟩

def injection : String := "battery staple\"\n\t\tIncomingUser \"mallory correct horse"

def twoUsers : Configuration where
  devices := [⟨"fileio1", "/dev/vg12/root", false⟩]
  targets := [⟨"iqn.2011-03.org.opensan:opensan:vg12.root",
    [("alice", "battery staple"), ("mallory", "correct horse")], [⟨"0", "fileio1", false⟩]⟩]

theorem render_congr {first second : Configuration} (hdevices : first.devices = second.devices)
    (htargets : first.targets.map Target.render = second.targets.map Target.render) :
    first.render = second.render := by
  unfold render
  rw [hdevices, htargets]

/-- With the password in it the text is that of a target with two users. -/
private theorem render_injection : (aliceTarget injection).render = twoUsers.render := by
  have husers : userText "alice" injection =
      userText "alice" "battery staple" ++ userText "mallory" "correct horse" := by
    decide +kernel
  refine render_congr rfl (congrArg (fun text => [text]) ?_)
  unfold Target.render
  refine congrArg (fun text => targetHeader _ ++ (text ++ _)) ?_
  change String.join [userText "alice" injection] = String.join [_, _]
  rw [String.join_cons, String.join_cons, String.join_cons, husers, String.append_assoc]

/-- A stored password adds the line of a user that is in no store. -/
theorem injection_not_shown :
    Exportable Host.quiet.hostname (enabledPatterns Host.quiet bootPattern) ∧
      (∀ credential ∈ alice injection, Accepted credential) ∧
      ∃ text devices configuration,
        dump Host.quiet bootPattern (alice injection) = .ok (text, devices) ∧
          readText text = some configuration ∧
          configuration.targets.map Target.users =
            [[("alice", "battery staple"), ("mallory", "correct horse")]] ∧
          ¬ Serves Host.quiet.hostname (enabledPatterns Host.quiet bootPattern)
            (alice injection) configuration := by
  have hlegible : Legible twoUsers := by
    constructor <;> decide +kernel
  have hread : readText twoUsers.render = some (shown twoUsers) :=
    readText_render hlegible nofun
  have hshown : shown twoUsers = twoUsers := by decide +kernel
  refine ⟨⟨named_of_isSome ?_, ?_, ?_, ?_⟩, ?_, (aliceTarget injection).render, ["fileio1"],
    twoUsers, by decide +kernel, ?_, rfl, fun hserves => ?_⟩
  · decide +kernel
  · decide +kernel
  · decide +kernel
  · decide +kernel
  · unfold Accepted
    decide +kernel
  · rw [render_injection, hread, hshown]
  · have husers := hserves.users _ List.mem_cons_self
      ⟨"/dev/vg12/root", bootPattern.head (by decide)⟩ (by decide +kernel) (by decide +kernel)
    revert husers
    decide +kernel

end OpenSan.Scst.Configuration
