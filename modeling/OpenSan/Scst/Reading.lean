import OpenSan.Foundation.Blocks
import OpenSan.Scst.Injection

/-!
# The configuration as it reads

The text of `Configuration.dump` is read back by its blocks: the devices of the
handler, the targets of the driver, and of each target its LUN entries and the
users given as one quoted string.  A text from `dump` reads as what it was
written from if nothing in it ends a line or opens a block.
-/

namespace OpenSan.Scst.Configuration

open OpenSan.Foundation

/-! ## Reading -/

def valueOf (directive : String) : Block → Option (List Char)
  | .line content => directive.toList.isPrefixOf? content
  | .block _ _ => none

def isLine (content : String) : Block → Bool
  | .line other => other == content.toList
  | .block _ _ => false

def deviceOf : Block → Option Device
  | .block [keyword, name] body =>
      if keyword = "DEVICE".toList then
        (body.findSome? (valueOf "filename ")).map fun filename =>
          ⟨String.ofList name, String.ofList filename, body.any (isLine "write_through 1")⟩
      else none
  | _ => none

def lunOf : Block → Option Lun
  | .block [keyword, lun, device] body =>
      if keyword = "LUN".toList then
        some ⟨String.ofList lun, String.ofList device, body.any (isLine "read_only 1")⟩
      else none
  | _ => none

/-- The two words of a quoted string that ends with its line. -/
def quotedPair (value : List Char) : Option (String × String) :=
  let quoted := value.takeWhile (· != '"')
  match value.dropWhile (· != '"'), quoted.dropWhile (· != ' ') with
  | ['"'], ' ' :: password =>
      some (String.ofList (quoted.takeWhile (· != ' ')), String.ofList password)
  | _, _ => none

def userOf (item : Block) : Option (String × String) :=
  (valueOf "IncomingUser \"" item).bind quotedPair

def targetOf : Block → Option Target
  | .block [keyword, name] body =>
      if keyword = "TARGET".toList then
        some ⟨String.ofList name, body.filterMap userOf, body.filterMap lunOf⟩
      else none
  | _ => none

def inside (keyword : String) : Block → List Block
  | .block (word :: _) body => if word = keyword.toList then body else []
  | _ => []

def ofBlocks (blocks : List Block) : Configuration where
  devices := (blocks.flatMap (inside "HANDLER")).filterMap deviceOf
  targets := (blocks.flatMap (inside "TARGET_DRIVER")).filterMap targetOf

def readText (text : String) : Option Configuration := (readBlocks text).map ofBlocks

/-! ## What can be read -/

theorem isPrefixOf?_append (first rest : List Char) :
    first.isPrefixOf? (first ++ rest) = some rest := by
  induction first with
  | nil => cases rest <;> rfl
  | cons c first ih => simp [List.isPrefixOf?, ih]

theorem eq_append_of_isPrefixOf? {first text rest : List Char}
    (h : first.isPrefixOf? text = some rest) : text = first ++ rest := by
  induction first generalizing text with
  | nil => exact Option.some.inj h
  | cons c first ih =>
      cases text with
      | nil => cases h
      | cons d text =>
          rw [List.isPrefixOf?] at h
          split at h
          · rename_i hsame
            rw [beq_iff_eq.mp hsame, ih h, List.cons_append]
          · cases h

theorem valueOf_oneLine {directive : String} {item : Block} {value : List Char}
    (hclean : Clean item) (h : valueOf directive item = some value) : OneLine value := by
  cases hclean with
  | block => cases h
  | line hline =>
      have htext := eq_append_of_isPrefixOf? h
      obtain ⟨hnewline, hlast⟩ := hline
      subst htext
      refine ⟨fun hmem => hnewline (List.mem_append_right _ hmem), fun hbrace => hlast ?_⟩
      rw [List.getLast?_append, hbrace]
      rfl

theorem quotedPair_quotable {value : List Char} {user : String × String}
    (hvalue : '\n' ∉ value) (h : quotedPair value = some user) : Quotable user.2 := by
  have hquote : '"' ∉ value.takeWhile (· != '"') := fun hmem => by
    simpa using List.mem_takeWhile_imp hmem
  have hnewline : '\n' ∉ value.takeWhile (· != '"') := fun hmem =>
    hvalue ((List.takeWhile_sublist _).mem hmem)
  unfold quotedPair at h
  simp only at h
  split at h
  · rename_i password _ hpassword
    obtain rfl := Option.some.inj h
    have hmem : ∀ c ∈ password, c ∈ value.takeWhile (· != '"') := by
      intro c hc
      have hdropped : c ∈ (value.takeWhile (· != '"')).dropWhile (· != ' ') := by
        rw [hpassword]
        exact List.mem_cons_of_mem _ hc
      exact (List.dropWhile_sublist _).mem hdropped
    simp only [Quotable, String.toList_ofList]
    exact ⟨fun hc => hquote (hmem _ hc), fun hc => hnewline (hmem _ hc)⟩
  · cases h

theorem clean_inside {keyword : String} {blocks : List Block}
    (hclean : ∀ item ∈ blocks, Clean item) :
    ∀ item ∈ blocks.flatMap (inside keyword), Clean item := by
  intro item hitem
  obtain ⟨outer, houter, hin⟩ := List.mem_flatMap.mp hitem
  cases hclean outer houter with
  | line => cases hin
  | block header hbody =>
      cases header with
      | nil => cases hin
      | cons word words =>
          rw [inside] at hin
          split at hin
          · exact hbody item hin
          · cases hin

theorem readText_eq_some {text : String} {configuration : Configuration}
    (h : readText text = some configuration) :
    (∀ device ∈ configuration.devices, OneLine device.filename.toList) ∧
      ∀ target ∈ configuration.targets, ∀ user ∈ target.users, Quotable user.2 := by
  obtain ⟨blocks, hblocks, rfl⟩ := Option.map_eq_some_iff.mp h
  have hclean := readBlocks_clean hblocks
  constructor
  · intro device hdevice
    obtain ⟨item, hitem, hread⟩ := List.mem_filterMap.mp hdevice
    have hitemClean := clean_inside hclean item hitem
    unfold deviceOf at hread
    split at hread
    · split at hread
      · obtain ⟨filename, hfilename, rfl⟩ := Option.map_eq_some_iff.mp hread
        obtain ⟨line, hline, hvalue⟩ := List.exists_of_findSome?_eq_some hfilename
        cases hitemClean with
        | block _ hbody =>
            rw [String.toList_ofList]
            exact valueOf_oneLine (hbody line hline) hvalue
      · cases hread
    · cases hread
  · intro target htarget user huser
    obtain ⟨item, hitem, hread⟩ := List.mem_filterMap.mp htarget
    have hitemClean := clean_inside hclean item hitem
    unfold targetOf at hread
    split at hread
    · split at hread
      · obtain rfl := Option.some.inj hread
        obtain ⟨line, hline, hvalue⟩ := List.mem_filterMap.mp huser
        obtain ⟨value, hof, hpair⟩ := Option.bind_eq_some_iff.mp hvalue
        cases hitemClean with
        | block _ hbody =>
            exact quotedPair_quotable (valueOf_oneLine (hbody line hline) hof).1 hpair
      · cases hread
    · cases hread

/-! ## What is written reads back -/

def userValue (user : String × String) : List Char :=
  user.1.toList ++ ' ' :: (user.2.toList ++ ['"'])

def deviceBlock (device : Device) : Block :=
  .block ["DEVICE".toList, device.name.toList]
    (.line ("filename ".toList ++ device.filename.toList) ::
      if device.writethrough then [.line "write_through 1".toList] else [])

def userLine (user : String × String) : Block :=
  .line ("IncomingUser \"".toList ++ userValue user)

def lunBlock (entry : Lun) : Block :=
  .block ["LUN".toList, entry.lun.toList, entry.device.toList]
    [.line ("read_only ".toList ++ (if entry.readOnly then "1" else "0").toList)]

def targetBlock (target : Target) : Block :=
  .block ["TARGET".toList, target.name.toList]
    ([.line "HeaderDigest None,CRC32C".toList, .line "DataDigest None,CRC32C".toList] ++
      (target.users.map userLine ++
        (target.luns.map lunBlock ++ [.line "enabled 1".toList])))

/-- Nothing in the configuration ends a line, opens a block or splits a name. -/
structure Legible (configuration : Configuration) : Prop where
  devices : ∀ device ∈ configuration.devices,
    Plain device.name.toList ∧ OneLine device.filename.toList
  targets : ∀ target ∈ configuration.targets, Plain target.name.toList
  luns : ∀ target ∈ configuration.targets, ∀ entry ∈ target.luns,
    Plain entry.lun.toList ∧ Plain entry.device.toList
  users : ∀ target ∈ configuration.targets, ∀ user ∈ target.users,
    '\n' ∉ user.1.toList ∧ '\n' ∉ user.2.toList

theorem deviceText_contributes {device : Device} (hname : Plain device.name.toList)
    (hfile : OneLine device.filename.toList) :
    Contributes (Device.render device) [deviceBlock device] := by
  have hfilename : Contributes ("\t\tfilename " ++ device.filename ++ "\n")
      [.line ("filename ".toList ++ device.filename.toList)] :=
    contributes_content ['\t', '\t'] rfl rfl (.append (by decide) hfile) (by simp)
  have hflag : Contributes (if device.writethrough then "\t\twrite_through 1\n" else "")
      (if device.writethrough then [.line "write_through 1".toList] else []) := by
    split
    · exact contributes_content ['\t', '\t'] rfl rfl (by decide) (by simp)
    · exact .empty
  have hwords : ∀ word ∈ ["DEVICE".toList, device.name.toList], Plain word := by
    simpa [hname] using (by decide : Plain "DEVICE".toList)
  have hblock := contributes_braces ['\t'] rfl rfl hwords
    (by simp [header] : ("\tDEVICE " ++ device.name ++ " \x7b\n").toList = _)
    (hfilename.append hflag) (by simp : "\t\x7d\n".toList = _)
  have htext : Device.render device = "\tDEVICE " ++ device.name ++ " \x7b\n" ++
      ("\t\tfilename " ++ device.filename ++ "\n" ++
        (if device.writethrough then "\t\twrite_through 1\n" else "") ++ "\t\x7d\n") := by
    simp only [Device.render, deviceText, String.append_assoc]
  rw [htext]
  exact hblock

theorem userText_contributes {user : String × String}
    (hname : '\n' ∉ user.1.toList) (hpassword : '\n' ∉ user.2.toList) :
    Contributes (userText user.1 user.2) [userLine user] := by
  have hvalue : OneLine (userValue user) := by
    constructor
    · simp [userValue, hname, hpassword]
    · rw [userValue, ← List.cons_append, ← List.append_assoc, List.getLast?_concat]
      decide
  have hline : OneLine ("IncomingUser \"".toList ++ userValue user) :=
    .append (by decide) hvalue
  have htext : (userText user.1 user.2).toList =
      ['\t', '\t'] ++ ("IncomingUser \"".toList ++ userValue user) ++ ['\n'] := by
    have hstart : "\t\tIncomingUser \"".toList =
        ['\t', '\t'] ++ "IncomingUser \"".toList := by decide
    have hspace : " ".toList = [' '] := by decide
    have hend : "\"\n".toList = ['"', '\n'] := by decide
    unfold userText userValue
    simp only [String.toList_append, hstart, hspace, hend,
      List.append_assoc, List.cons_append, List.nil_append]
  exact contributes_content ['\t', '\t'] rfl rfl hline htext

theorem lunText_contributes {entry : Lun} (hlun : Plain entry.lun.toList)
    (hdevice : Plain entry.device.toList) :
    Contributes (lunText entry.lun entry.device entry.readOnly) [lunBlock entry] := by
  have hvalue : OneLine (if entry.readOnly then "1" else "0").toList := by
    split
    · decide
    · decide
  have hflag : Contributes
      ("\t\t\tread_only " ++ (if entry.readOnly then "1" else "0") ++ "\n")
      [.line ("read_only ".toList ++ (if entry.readOnly then "1" else "0").toList)] :=
    contributes_content ['\t', '\t', '\t'] rfl rfl (.append (by decide) hvalue) (by simp)
  have hwords : ∀ word ∈ ["LUN".toList, entry.lun.toList, entry.device.toList],
      Plain word := by
    simpa [hlun, hdevice] using (by decide : Plain "LUN".toList)
  have hblock := contributes_braces ['\t', '\t'] rfl rfl hwords
    (by simp [header] :
      ("\t\tLUN " ++ entry.lun ++ " " ++ entry.device ++ " \x7b\n").toList = _)
    hflag (by simp : "\t\t\x7d\n".toList = _)
  rw [lunText, String.append_assoc]
  exact hblock

theorem targetText_contributes {target : Target} (hname : Plain target.name.toList)
    (hluns : ∀ entry ∈ target.luns, Plain entry.lun.toList ∧ Plain entry.device.toList)
    (husers : ∀ user ∈ target.users, '\n' ∉ user.1.toList ∧ '\n' ∉ user.2.toList) :
    Contributes (Target.render target) [targetBlock target] := by
  have hfixed : ∀ content : String, startsLine content.toList = true →
      OneLine content.toList →
      Contributes ("\t\t" ++ content ++ "\n") [.line content.toList] :=
    fun content hstart hline =>
      contributes_content ['\t', '\t'] rfl hstart hline (by simp)
  have hdigests := (hfixed "HeaderDigest None,CRC32C" rfl (by decide)).append
    (hfixed "DataDigest None,CRC32C" rfl (by decide))
  have hbody := hdigests.append ((Contributes.join fun user huser =>
    userText_contributes (husers user huser).1 (husers user huser).2).append
      ((Contributes.join fun entry hentry =>
        lunText_contributes (hluns entry hentry).1 (hluns entry hentry).2).append
          (hfixed "enabled 1" rfl (by decide))))
  have hwords : ∀ word ∈ ["TARGET".toList, target.name.toList], Plain word := by
    simpa [hname] using (by decide : Plain "TARGET".toList)
  have hblock := contributes_braces ['\t'] rfl rfl hwords
    (by simp [header] : ("\tTARGET " ++ target.name ++ " \x7b\n").toList = _) hbody
    (by simp : "\t\x7d\n".toList = _)
  have htext : Target.render target = "\tTARGET " ++ target.name ++ " \x7b\n" ++
      (("\t\t" ++ "HeaderDigest None,CRC32C" ++ "\n" ++
        ("\t\t" ++ "DataDigest None,CRC32C" ++ "\n") ++
        (String.join (target.users.map fun user => userText user.1 user.2) ++
          (String.join (target.luns.map fun entry =>
            lunText entry.lun entry.device entry.readOnly) ++
              ("\t\t" ++ "enabled 1" ++ "\n")))) ++ "\t\x7d\n") := by
    apply String.toList_injective
    simp [Target.render, targetHeader, targetFooter]
  rw [htext]
  exact hblock

theorem render_contributes {configuration : Configuration} (h : Legible configuration)
    (hsome : configuration.devices ≠ []) :
    Contributes configuration.render
      [.block ["HANDLER".toList, "vdisk_fileio".toList] (configuration.devices.map deviceBlock),
        .block ["TARGET_DRIVER".toList, "iscsi".toList]
          (configuration.targets.map targetBlock ++ [.line "enabled 1".toList])] := by
  have hdevices : Contributes
      (String.join (configuration.devices.map Device.render))
      (configuration.devices.map deviceBlock) :=
    .join fun device hdevice =>
      deviceText_contributes (h.devices device hdevice).1 (h.devices device hdevice).2
  have htargets : Contributes
      (String.join (configuration.targets.map Target.render))
      (configuration.targets.map targetBlock) :=
    .join fun target htarget => targetText_contributes (h.targets target htarget)
      (h.luns target htarget) (h.users target htarget)
  have henabled : Contributes "\tenabled 1\n" [.line "enabled 1".toList] :=
    contributes_content ['\t'] rfl rfl (by decide) (by simp)
  have hhandler := contributes_braces [] rfl rfl
    (by decide)
    (by simp [header] : "HANDLER vdisk_fileio \x7b\n".toList =
      [] ++ header ["HANDLER".toList, "vdisk_fileio".toList] ++ ['\n'])
    hdevices (by simp : "\x7d\n".toList = _)
  have hdriver := contributes_braces [] rfl rfl
    (by decide)
    (by simp [header] : "TARGET_DRIVER iscsi \x7b\n".toList =
      [] ++ header ["TARGET_DRIVER".toList, "iscsi".toList] ++ ['\n'])
    (htargets.append henabled) (by simp : "\x7d\n".toList = _)
  have htext : configuration.render = "HANDLER vdisk_fileio \x7b\n" ++
      (String.join (configuration.devices.map Device.render) ++ "\x7d\n") ++
      ("TARGET_DRIVER iscsi \x7b\n" ++ (String.join (configuration.targets.map Target.render) ++
        "\tenabled 1\n" ++ "\x7d\n")) := by
    apply String.toList_injective
    simp [render, hsome]
  rw [htext]
  exact hhandler.append hdriver

/-! ## The blocks of a configuration -/

theorem deviceOf_deviceBlock (device : Device) : deviceOf (deviceBlock device) = some device := by
  have hfile : valueOf "filename " (.line ("filename ".toList ++ device.filename.toList)) =
      some device.filename.toList := isPrefixOf?_append _ _
  have hflag : (if device.writethrough then [Block.line "write_through 1".toList]
      else []).any (isLine "write_through 1") = device.writethrough := by
    cases device.writethrough with
    | true => decide
    | false => rfl
  have hother : isLine "write_through 1"
      (.line ("filename ".toList ++ device.filename.toList)) = false := rfl
  unfold deviceOf deviceBlock
  simp only [if_true, List.findSome?_cons, hfile, Option.map_some, List.any_cons, hother,
    Bool.false_or, hflag, String.ofList_toList]

theorem lunOf_lunBlock (entry : Lun) : lunOf (lunBlock entry) = some entry := by
  have hflag : isLine "read_only 1" (.line ("read_only ".toList ++
      (if entry.readOnly then "1" else "0").toList)) = entry.readOnly := by
    cases entry.readOnly with
    | true => decide
    | false => decide
  unfold lunOf lunBlock
  simp only [if_true, List.any_cons, hflag, List.any_nil, Bool.or_false, String.ofList_toList]

/-- The target as it reads: with the users that are one quoted string. -/
def shownUsers (target : Target) : Target :=
  { target with users := target.users.filterMap fun user => quotedPair (userValue user) }

def shown (configuration : Configuration) : Configuration :=
  { configuration with targets := configuration.targets.map shownUsers }

theorem targetOf_targetBlock (target : Target) :
    targetOf (targetBlock target) = some (shownUsers target) := by
  have huser : ∀ user : String × String, userOf (userLine user) = quotedPair (userValue user) := by
    intro user
    have hvalue : valueOf "IncomingUser \"" (userLine user) = some (userValue user) :=
      isPrefixOf?_append _ _
    rw [userOf, hvalue, Option.bind_some]
  have hlunUser : ∀ entry : Lun, userOf (lunBlock entry) = none := fun entry => rfl
  have huserLun : ∀ user : String × String, lunOf (userLine user) = none := fun user => rfl
  have husers : (target.users.map userLine).filterMap userOf = (shownUsers target).users := by
    rw [List.filterMap_map]
    exact List.filterMap_congr fun user _ => huser user
  have hluns : (target.luns.map lunBlock).filterMap lunOf = target.luns := by
    rw [List.filterMap_map]
    exact (List.filterMap_congr fun entry _ => lunOf_lunBlock entry).trans List.filterMap_some
  have hnoUsers : (target.luns.map lunBlock).filterMap userOf = [] := by
    simp [hlunUser]
  have hnoLuns : (target.users.map userLine).filterMap lunOf = [] := by
    simp [huserLun]
  have hfixed : ∀ content ∈ ["HeaderDigest None,CRC32C", "DataDigest None,CRC32C", "enabled 1"],
      userOf (.line content.toList) = none ∧ lunOf (.line content.toList) = none := by
    decide +kernel
  simp only [List.forall_mem_cons] at hfixed
  obtain ⟨⟨hheader, hheader'⟩, ⟨hdata, hdata'⟩, ⟨henabled, henabled'⟩, -⟩ := hfixed
  unfold targetOf targetBlock
  simp only [if_true, List.filterMap_append, List.filterMap_cons, List.filterMap_nil, hheader,
    hheader', hdata, hdata', henabled, henabled', husers, hluns, hnoUsers, hnoLuns,
    List.nil_append, List.append_nil, String.ofList_toList]
  rfl

theorem readText_render {configuration : Configuration} (h : Legible configuration)
    (hempty : configuration.devices = [] → configuration.targets = []) :
    readText configuration.render = some (shown configuration) := by
  by_cases hnone : configuration.devices = []
  · obtain ⟨devices, targets⟩ := configuration
    obtain rfl : devices = [] := hnone
    obtain rfl : targets = [] := hempty rfl
    rfl
  · have hdevices : (configuration.devices.map deviceBlock).filterMap deviceOf =
        configuration.devices := by
      rw [List.filterMap_map]
      exact (List.filterMap_congr fun device _ => deviceOf_deviceBlock device).trans
        List.filterMap_some
    have htargets : (configuration.targets.map targetBlock).filterMap targetOf =
        configuration.targets.map shownUsers := by
      rw [List.filterMap_map, ← List.filterMap_eq_map]
      exact List.filterMap_congr fun target _ => targetOf_targetBlock target
    have henabled : targetOf (.line "enabled 1".toList) = none := rfl
    have hhandler : ∀ items, inside "HANDLER" (.block ["HANDLER".toList,
        "vdisk_fileio".toList] items) = items := fun items => rfl
    have hdriver : ∀ items, inside "TARGET_DRIVER" (.block ["TARGET_DRIVER".toList,
        "iscsi".toList] items) = items := fun items => rfl
    have hnoDriver : ∀ items, inside "HANDLER" (.block ["TARGET_DRIVER".toList,
        "iscsi".toList] items) = [] := fun items => rfl
    have hnoHandler : ∀ items, inside "TARGET_DRIVER" (.block ["HANDLER".toList,
        "vdisk_fileio".toList] items) = [] := fun items => rfl
    rw [readText, (render_contributes h hnone).readBlocks, Option.map_some, ofBlocks]
    simp only [List.flatMap_cons, List.flatMap_nil, hhandler, hdriver, hnoDriver, hnoHandler,
      List.append_nil, List.nil_append, List.filterMap_append, List.filterMap_cons,
      List.filterMap_nil, henabled, hdevices, htargets]
    rfl

theorem quotedPair_userValue {user : String × String} (hspace : ' ' ∉ user.1.toList)
    (hname : '"' ∉ user.1.toList) (hpassword : '"' ∉ user.2.toList) :
    quotedPair (userValue user) = some user := by
  have hquoted : ∀ c ∈ user.1.toList ++ ' ' :: user.2.toList, (c != '"') = true := by
    intro c hc
    rw [bne_iff_ne]
    rintro rfl
    simp [hname, hpassword] at hc
  have hword : ∀ c ∈ user.1.toList, (c != ' ') = true := by
    intro c hc
    rw [bne_iff_ne]
    rintro rfl
    exact hspace hc
  have hvalue : userValue user = (user.1.toList ++ ' ' :: user.2.toList) ++ ['"'] := by
    simp [userValue]
  have htake : (userValue user).takeWhile (· != '"') = user.1.toList ++ ' ' :: user.2.toList := by
    rw [hvalue, List.takeWhile_append_of_pos hquoted]
    simp
  have hdrop : (userValue user).dropWhile (· != '"') = ['"'] := by
    rw [hvalue, List.dropWhile_append_of_pos hquoted]
    rfl
  have hpair : (user.1.toList ++ ' ' :: user.2.toList).dropWhile (· != ' ') =
      ' ' :: user.2.toList := by
    rw [List.dropWhile_append_of_pos hword]
    rfl
  have hfirst : (user.1.toList ++ ' ' :: user.2.toList).takeWhile (· != ' ') =
      user.1.toList := by
    rw [List.takeWhile_append_of_pos hword]
    simp
  unfold quotedPair
  simp only [htake, hdrop, hpair, hfirst, String.ofList_toList]

end OpenSan.Scst.Configuration
