import OpenSan.Foundation.Outline
import OpenSan.Scst.Exports

/-!
# Credentials in the configuration

The user name of a credential is checked against a pattern before it is stored,
the password only for its length, and `Configuration.dump` puts both between
quotes as they are.
-/

namespace OpenSan.Scst.Configuration

open OpenSan.Foundation

/-! ## The line of a credential -/

def Accepted (credential : AuthCredential) : Prop :=
  AuthCredential.new credential.sectionName (some credential.username)
    (some credential.password) (some credential.filename) = .ok credential

/-- Nothing in the text ends the string or the line it stands in. -/
def Quotable (text : String) : Prop := '"' ∉ text.toList ∧ '\n' ∉ text.toList

/-- The text of a user is one line with one quoted string. -/
def OneQuotedLine (text : String) : Prop :=
  ∃ value, text = "\t\tIncomingUser \"" ++ value ++ "\"\n" ∧ Quotable value

theorem Accepted.quotable {credential : AuthCredential} (h : Accepted credential) :
    Quotable credential.username := by
  have hvalid : AuthCredential.usernameIsValid credential.username = true := by
    by_contra hno
    rw [Accepted, AuthCredential.new] at h
    simp only [hno] at h
    cases h
  have hcharacters := ((Pattern.anchored_plus_finish _ _).mp hvalid).2
  constructor
  · intro hquote
    exact absurd (hcharacters _ hquote) (by decide)
  · intro hnewline
    exact absurd (hcharacters _ hnewline) (by decide)

theorem oneQuotedLine_iff {username password : String} (h : Quotable username) :
    OneQuotedLine (userText username password) ↔ Quotable password := by
  have htext : userText username password =
      "\t\tIncomingUser \"" ++ (username ++ (" " ++ password)) ++ "\"\n" := by
    unfold userText
    rw [String.append_assoc, String.append_assoc, String.append_assoc,
      String.append_assoc, String.append_assoc, String.append_assoc]
  have hvalue : Quotable (username ++ (" " ++ password)) ↔ Quotable password := by
    simp [Quotable, h.1, h.2]
  rw [← hvalue]
  constructor
  · rintro ⟨value, heq, hquotable⟩
    rw [htext, String.append_left_inj, String.append_right_inj] at heq
    rw [heq]
    exact hquotable
  · intro hquotable
    exact ⟨_, htext, hquotable⟩

def userDirective : Directive := ⟨"IncomingUser".toList, false⟩

private theorem quote_newline : "\"\n" = "\"" ++ "\n" := by decide +kernel

private theorem userWord : "\t\tIncomingUser \"".toList =
    ['\t', '\t', 'I', 'n', 'c', 'o', 'm', 'i', 'n', 'g', 'U', 's', 'e', 'r', ' ', '"'] := by
  decide +kernel

private theorem directive_user (value : List Char) :
    directive ("\t\tIncomingUser \"".toList ++ (value ++ ['"'])) = userDirective := by
  rw [userWord, ← List.append_assoc]
  have hword : ∀ rest : List Char, ((['\t', '\t', 'I', 'n', 'c', 'o', 'm', 'i', 'n', 'g',
      'U', 's', 'e', 'r', ' ', '"'] ++ rest).dropWhile blank).takeWhile (fun c => !blank c) =
        "IncomingUser".toList := fun rest => rfl
  unfold directive userDirective
  rw [List.getLast?_concat, List.append_assoc, hword]
  rfl

theorem userText_outline {username password : String} (hname : Quotable username)
    (hpassword : Quotable password) :
    HasOutline (userText username password) [userDirective] := by
  have htext : userText username password =
      "\t\tIncomingUser \"" ++ username ++ " " ++ password ++ "\"" ++ "\n" := by
    unfold userText
    rw [quote_newline, ← String.append_assoc]
  have hline : ("\t\tIncomingUser \"" ++ username ++ " " ++ password ++ "\"").toList =
      "\t\tIncomingUser \"".toList ++ ((username ++ " " ++ password).toList ++ ['"']) := by
    simp only [String.toList_append, List.append_assoc]
    rfl
  have hone : '\n' ∉
      ("\t\tIncomingUser \"" ++ username ++ " " ++ password ++ "\"").toList := by
    rw [hline, userWord]
    simp [hname.2, hpassword.2]
  have houtline := hasOutline_line
    ("\t\tIncomingUser \"" ++ username ++ " " ++ password ++ "\"")
  rw [lines_of_notMem hone, List.map_singleton, hline, directive_user] at houtline
  rw [htext]
  exact houtline

/-! ## The credentials of a target -/

/-- The last exported pattern with LUN 0 and a target name. -/
def lastZero (hostname : Option String) (target : String) : List Export → Option Export
  | [] => none
  | item :: items => (lastZero hostname target items).or
      (if HasTarget hostname target item ∧ item.pattern.lun = 0 then some item else none)

def zeroAt (targets : Table String Luns) (target : String) : Option Export :=
  (targets.lookup target).bind fun luns => luns.lookup "0"

theorem zeroAt_addTarget {hostname : Option String} {targets next : Table String Luns}
    {item : Export} (h : addTarget hostname targets item = .ok next) (target : String) :
    zeroAt next target =
      Option.or (if HasTarget hostname target item ∧ item.pattern.lun = 0 then some item
        else none) (zeroAt targets target) := by
  unfold addTarget at h
  cases hiqn : iqn hostname item.filename with
  | error e =>
      rw [hiqn] at h
      cases h
  | ok name =>
      rw [hiqn] at h
      obtain rfl := Except.ok.inj h
      have hhas : HasTarget hostname target item ↔ target = name := by
        rw [HasTarget, hiqn, Except.ok.injEq]
        exact eq_comm
      have hzero : toString item.pattern.lun = "0" ↔ item.pattern.lun = 0 :=
        @toString_int_inj item.pattern.lun 0
      by_cases htarget : target = name
      · subst htarget
        by_cases hlun : item.pattern.lun = 0
        · rw [if_pos ⟨hhas.mpr rfl, hlun⟩, zeroAt, Table.update, AList.lookup_insert,
            Option.bind_some, hzero.mpr hlun, AList.lookup_insert]
          rfl
        · rw [if_neg fun hboth => hlun hboth.2, zeroAt, Table.update, AList.lookup_insert,
            Option.bind_some, AList.lookup_insert_ne fun heq => hlun (hzero.mp heq.symm),
            zeroAt]
          cases targets.lookup target <;> rfl
      · rw [if_neg fun hboth => htarget (hhas.mp hboth.1), zeroAt, Table.update,
          AList.lookup_insert_ne htarget]
        rfl

theorem zeroAt_collectTargets {hostname : Option String} {items : List Export}
    {targets final : Table String Luns}
    (h : collectTargets hostname items targets = .ok final) (target : String) :
    zeroAt final target = (lastZero hostname target items).or (zeroAt targets target) := by
  induction items generalizing targets with
  | nil =>
      obtain rfl := Except.ok.inj h
      rfl
  | cons item items ih =>
      rw [collectTargets] at h
      cases hadd : addTarget hostname targets item with
      | error e =>
          rw [hadd] at h
          cases h
      | ok next =>
          rw [hadd] at h
          rw [ih h, zeroAt_addTarget hadd, lastZero, Option.or_assoc]

/-- The credentials of a volume are written out: the volume is that of the last
exported pattern with LUN 0 of some target. -/
def Emitted (host : Host) (patterns : List AccessPattern) (filename : String) : Prop :=
  ∃ target item, lastZero host.hostname target (enabledPatterns host patterns) = some item ∧
    item.filename = filename

section Blocks

variable {host : Host} {patterns : List AccessPattern} {credentials : List AuthCredential}
  {configuration : Configuration} {fileios : Table String Nat}
  {entries : List (Sigma fun _ : String => Luns)} {blocks : List Target}

theorem describe_eq_ok (h : describe host patterns credentials = .ok configuration) :
    ∃ targets, collectTargets host.hostname (enabledPatterns host patterns) ∅ = .ok targets ∧
      describeTargets host credentials
        (describeFileios 1 (enabledPatterns host patterns) ∅)
        (host.order.visit targets.entries) = .ok configuration.targets ∧
      configuration.devices = describeDevices 1 (enabledPatterns host patterns) := by
  unfold describe at h
  cases henabled : enabledPatterns host patterns with
  | nil =>
      rw [henabled] at h
      obtain rfl := Except.ok.inj h
      refine ⟨∅, rfl, ?_, rfl⟩
      have hnone : host.order.visit (∅ : Table String Luns).entries = [] :=
        (host.order.perm _).eq_nil
      rw [hnone]
      rfl
  | cons item items =>
      rw [henabled] at h
      cases hcollect : collectTargets host.hostname (item :: items) ∅ with
      | error e =>
          simp only [hcollect] at h
          cases h
      | ok targets =>
          simp only [hcollect] at h
          cases hblocks : describeTargets host credentials
              (describeFileios 1 (item :: items) ∅) (host.order.visit targets.entries) with
          | error e =>
              rw [hblocks] at h
              cases h
          | ok blocks =>
              rw [hblocks] at h
              obtain rfl := Except.ok.inj h
              exact ⟨targets, rfl, hblocks, rfl⟩

theorem forall₂_of_describeTargets
    (h : describeTargets host credentials fileios entries = .ok blocks) :
    List.Forall₂ (fun entry block =>
      describeTarget host credentials fileios entry.1 entry.2 = .ok block)
      entries blocks := by
  induction entries generalizing blocks with
  | nil =>
      obtain rfl := Except.ok.inj h
      exact .nil
  | cons entry entries ih =>
      rw [describeTargets] at h
      cases hblock : describeTarget host credentials fileios entry.1 entry.2 with
      | error e =>
          rw [hblock] at h
          cases h
      | ok block =>
          rw [hblock] at h
          cases hrest : describeTargets host credentials fileios entries with
          | error e =>
              simp only [hrest] at h
              cases h
          | ok later =>
              simp only [hrest] at h
              obtain rfl := Except.ok.inj h
              exact .cons hblock (ih hrest)

theorem entry_block (h : List.Forall₂ (fun entry block =>
      describeTarget host credentials fileios entry.1 entry.2 = .ok block)
      entries blocks) {entry : Sigma fun _ : String => Luns} (hmem : entry ∈ entries) :
    ∃ block ∈ blocks,
      describeTarget host credentials fileios entry.1 entry.2 = .ok block := by
  induction h with
  | nil => cases hmem
  | cons hblock _ ih =>
      rcases List.mem_cons.mp hmem with rfl | hrest
      · exact ⟨_, List.mem_cons_self, hblock⟩
      · obtain ⟨block, hin, hdescribed⟩ := ih hrest
        exact ⟨block, List.mem_cons_of_mem _ hin, hdescribed⟩

theorem mem_users_iff (h : describe host patterns credentials = .ok configuration)
    {user : String × String} :
    (∃ target ∈ configuration.targets, user ∈ target.users) ↔
      ∃ credential ∈ credentials, Emitted host patterns credential.filename ∧
        user = (credential.username, credential.password) := by
  obtain ⟨targets, hcollect, hblocks, -⟩ := describe_eq_ok h
  have hall := forall₂_of_describeTargets hblocks
  have hzero : ∀ name, zeroAt targets name =
      lastZero host.hostname name (enabledPatterns host patterns) := by
    intro name
    rw [zeroAt_collectTargets hcollect]
    exact Option.or_none
  constructor
  · rintro ⟨target, htarget, huser⟩
    obtain ⟨⟨name, luns⟩, hentry, hdescribed⟩ := block_entry hall htarget
    obtain ⟨-, ⟨first, hfirst, husers⟩, -⟩ := describeTarget_eq_ok hdescribed
    rw [husers] at huser
    obtain ⟨credential, hlisted, rfl⟩ := List.mem_map.mp huser
    obtain ⟨hmem, hfile⟩ := List.mem_filter.mp hlisted
    rw [Order.mem_visit, ← AList.mem_lookup_iff] at hentry
    refine ⟨credential, hmem, ⟨name, first, ?_, (beq_iff_eq.mp hfile).symm⟩, rfl⟩
    rw [← hzero, zeroAt, hentry]
    exact hfirst
  · rintro ⟨credential, hmem, ⟨name, first, hlast, hfile⟩, rfl⟩
    rw [← hzero] at hlast
    obtain ⟨luns, hluns, hfirst⟩ := Option.bind_eq_some_iff.mp hlast
    obtain ⟨target, htarget, hdescribed⟩ := entry_block hall
      ((host.order.mem_visit).mpr (AList.mem_lookup_iff.mp hluns))
    obtain ⟨-, ⟨zero, hzeroLun, husers⟩, -⟩ := describeTarget_eq_ok hdescribed
    obtain rfl := Option.some.inj (hfirst.symm.trans hzeroLun)
    refine ⟨target, htarget, ?_⟩
    rw [husers]
    exact List.mem_map.mpr ⟨credential,
      List.mem_filter.mpr ⟨hmem, beq_iff_eq.mpr hfile.symm⟩, rfl⟩

end Blocks

/-! ## The outline of the configuration -/

theorem targetHeader_newline (name : String) :
    (targetHeader name).toList.getLast? = some '\n' :=
  getLast?_append_newline (by decide +kernel)

theorem lunText_newline (lun device : String) (readOnly : Bool) :
    (lunText lun device readOnly).toList.getLast? = some '\n' :=
  getLast?_append_newline (by decide +kernel)

theorem deviceText_newline (device filename : String) (writethrough : Bool) :
    (deviceText device filename writethrough).toList.getLast? = some '\n' :=
  getLast?_append_newline (getLast?_append_newline
    (getLast?_append_newline (by decide +kernel)))

structure Alike (first second : Target) : Prop where
  name : first.name = second.name
  luns : first.luns = second.luns
  users : first.users.length = second.users.length

def QuotableUsers (target : Target) : Prop :=
  ∀ user ∈ target.users, Quotable user.1 ∧ Quotable user.2

private theorem sameOutline_self {texts : List String}
    (h : ∀ text ∈ texts, text.toList.getLast? = some '\n') :
    SameOutline (String.join texts) (String.join texts) := by
  refine .join (List.forall₂_same.mpr fun text htext => .refl (h text htext))

theorem users_sameOutline {first second : List (String × String)}
    (hlength : first.length = second.length)
    (hfirst : ∀ user ∈ first, Quotable user.1 ∧ Quotable user.2)
    (hsecond : ∀ user ∈ second, Quotable user.1 ∧ Quotable user.2) :
    List.Forall₂ SameOutline (first.map fun user => userText user.1 user.2)
      (second.map fun user => userText user.1 user.2) := by
  rw [List.forall₂_map_left_iff, List.forall₂_map_right_iff, List.forall₂_iff_zip]
  refine ⟨hlength, fun {user other} hpair => ?_⟩
  obtain ⟨huser, hother⟩ := List.of_mem_zip hpair
  obtain ⟨hname, hpassword⟩ := hfirst user huser
  obtain ⟨hname', hpassword'⟩ := hsecond other hother
  exact ⟨_, userText_outline hname hpassword, userText_outline hname' hpassword'⟩

theorem Alike.sameOutline {first second : Target} (h : Alike first second)
    (hfirst : QuotableUsers first) (hsecond : QuotableUsers second) :
    SameOutline (Target.render first) (Target.render second) := by
  unfold Target.render
  rw [h.name, h.luns]
  refine .append (.refl (targetHeader_newline _)) (.append ?_ (.append ?_ ?_))
  · exact .join (users_sameOutline h.users hfirst hsecond)
  · refine sameOutline_self fun text htext => ?_
    obtain ⟨entry, -, rfl⟩ := List.mem_map.mp htext
    exact lunText_newline _ _ _
  · exact .refl (by decide +kernel)

theorem render_sameOutline {first second : Configuration}
    (hdevices : first.devices = second.devices)
    (htargets : List.Forall₂ Alike first.targets second.targets)
    (hfirst : ∀ target ∈ first.targets, QuotableUsers target)
    (hsecond : ∀ target ∈ second.targets, QuotableUsers target) :
    SameOutline first.render second.render := by
  unfold render
  rw [hdevices]
  split
  · exact .empty
  · refine .append (.refl (by decide +kernel)) (.append ?_ (.append
      (.refl (by decide +kernel)) (.append (.refl (by decide +kernel)) (.append ?_
        (.refl (by decide +kernel))))))
    · refine sameOutline_self fun text htext => ?_
      obtain ⟨device, -, rfl⟩ := List.mem_map.mp htext
      exact deviceText_newline _ _ _
    · refine .join ?_
      rw [List.forall₂_map_left_iff, List.forall₂_map_right_iff]
      rw [List.forall₂_iff_zip] at htargets ⊢
      refine ⟨htargets.1, fun {target other} hpair => ?_⟩
      obtain ⟨htarget, hother⟩ := List.of_mem_zip hpair
      exact (htargets.2 hpair).sameOutline (hfirst target htarget) (hsecond other hother)

section Pair

variable {host : Host} {patterns : List AccessPattern} {left right : List AuthCredential}
  {first second : Configuration}

theorem describeTarget_alike
    (hcount : ∀ filename, (listFor left filename).length = (listFor right filename).length)
    {fileios : Table String Nat} {name : String} {luns : Luns} {target other : Target}
    (htarget : describeTarget host left fileios name luns = .ok target)
    (hother : describeTarget host right fileios name luns = .ok other) :
    Alike target other := by
  obtain ⟨hname, ⟨zero, hzero, husers⟩, hluns⟩ := describeTarget_eq_ok htarget
  obtain ⟨hname', ⟨zero', hzero', husers'⟩, hluns'⟩ := describeTarget_eq_ok hother
  obtain rfl := Option.some.inj (hzero.symm.trans hzero')
  refine ⟨hname.trans hname'.symm, hluns.trans hluns'.symm, ?_⟩
  rw [husers, husers', List.length_map, List.length_map, hcount]

theorem describe_alike
    (hcount : ∀ filename, (listFor left filename).length = (listFor right filename).length)
    (hfirst : describe host patterns left = .ok first)
    (hsecond : describe host patterns right = .ok second) :
    first.devices = second.devices ∧ List.Forall₂ Alike first.targets second.targets := by
  obtain ⟨targets, hcollect, hblocks, hdevices⟩ := describe_eq_ok hfirst
  obtain ⟨targets', hcollect', hblocks', hdevices'⟩ := describe_eq_ok hsecond
  obtain rfl := Except.ok.inj (hcollect.symm.trans hcollect')
  refine ⟨hdevices.trans hdevices'.symm, ?_⟩
  have hleft := forall₂_of_describeTargets hblocks
  have hright := forall₂_of_describeTargets hblocks'
  generalize host.order.visit targets.entries = entries at hleft hright
  generalize first.targets = blocks at hleft ⊢
  generalize second.targets = blocks' at hright ⊢
  induction hleft generalizing blocks' with
  | nil =>
      cases hright
      exact .nil
  | cons htarget _ ih =>
      cases hright with
      | cons hother hrest =>
          exact .cons (describeTarget_alike hcount htarget hother) (ih _ hrest)

/-- Two configurations have the same lines, up to what stands between the quotes
of the users, and each user is one quoted string on one line. -/
def Contained (first second : Configuration) : Prop :=
  (lines first.render.toList).length = (lines second.render.toList).length ∧
    outline first.render = outline second.render ∧
    ∀ target ∈ first.targets ++ second.targets, ∀ user ∈ target.users,
      OneQuotedLine (userText user.1 user.2)

/-- No password that is written out contains a quote or a newline. -/
def PasswordsQuotable (host : Host) (patterns : List AccessPattern)
    (credentials : List AuthCredential) : Prop :=
  ∀ credential ∈ credentials, Emitted host patterns credential.filename →
    Quotable credential.password

theorem users_quotable_iff {credentials : List AuthCredential}
    {configuration : Configuration}
    (haccepted : ∀ credential ∈ credentials, Accepted credential)
    (h : describe host patterns credentials = .ok configuration) :
    (∀ target ∈ configuration.targets, QuotableUsers target) ↔
      PasswordsQuotable host patterns credentials := by
  constructor
  · intro hquotable credential hmem hemitted
    obtain ⟨target, htarget, huser⟩ :=
      (mem_users_iff h).mpr ⟨credential, hmem, hemitted, rfl⟩
    exact (hquotable target htarget _ huser).2
  · intro hpasswords target htarget user huser
    obtain ⟨credential, hmem, hemitted, rfl⟩ :=
      (mem_users_iff h).mp ⟨target, htarget, huser⟩
    exact ⟨(haccepted credential hmem).quotable, hpasswords credential hmem hemitted⟩

theorem oneQuotedLine_users_iff {credentials : List AuthCredential}
    {configuration : Configuration}
    (haccepted : ∀ credential ∈ credentials, Accepted credential)
    (h : describe host patterns credentials = .ok configuration) :
    (∀ target ∈ configuration.targets, ∀ user ∈ target.users,
      OneQuotedLine (userText user.1 user.2)) ↔
      PasswordsQuotable host patterns credentials := by
  rw [← users_quotable_iff haccepted h]
  refine forall₂_congr fun target htarget => forall₂_congr fun user huser => ?_
  obtain ⟨credential, hmem, -, rfl⟩ := (mem_users_iff h).mp ⟨target, htarget, huser⟩
  have hname := (haccepted credential hmem).quotable
  rw [oneQuotedLine_iff hname, and_iff_right hname]

theorem contained_iff (hleft : ∀ credential ∈ left, Accepted credential)
    (hright : ∀ credential ∈ right, Accepted credential)
    (hcount : ∀ filename, (listFor left filename).length = (listFor right filename).length)
    (hfirst : describe host patterns left = .ok first)
    (hsecond : describe host patterns right = .ok second) :
    Contained first second ↔
      PasswordsQuotable host patterns left ∧ PasswordsQuotable host patterns right := by
  have hquoted : (∀ target ∈ first.targets ++ second.targets, ∀ user ∈ target.users,
      OneQuotedLine (userText user.1 user.2)) ↔
      PasswordsQuotable host patterns left ∧ PasswordsQuotable host patterns right := by
    rw [List.forall_mem_append, oneQuotedLine_users_iff hleft hfirst,
      oneQuotedLine_users_iff hright hsecond]
  constructor
  · rintro ⟨-, -, hlines⟩
    exact hquoted.mp hlines
  · rintro ⟨hpasswords, hpasswords'⟩
    obtain ⟨hdevices, htargets⟩ := describe_alike hcount hfirst hsecond
    have houtline := (render_sameOutline hdevices htargets
      ((users_quotable_iff hleft hfirst).mpr hpasswords)
      ((users_quotable_iff hright hsecond).mpr hpasswords')).outline_eq
    refine ⟨?_, houtline, hquoted.mpr ⟨hpasswords, hpasswords'⟩⟩
    simpa [outline] using congrArg List.length houtline

theorem describe_of_dump {credentials : List AuthCredential} {text : String}
    {devices : List String} (h : dump host patterns credentials = .ok (text, devices)) :
    ∃ configuration, describe host patterns credentials = .ok configuration ∧
      configuration.render = text := by
  rw [dump_eq_render] at h
  cases hdescribe : describe host patterns credentials with
  | error e =>
      rw [hdescribe] at h
      cases h
  | ok configuration =>
      rw [hdescribe] at h
      exact ⟨configuration, rfl, congrArg Prod.fst (Except.ok.inj h)⟩

theorem dump_contained_iff {text text' : String} {devices devices' : List String}
    (hleft : ∀ credential ∈ left, Accepted credential)
    (hright : ∀ credential ∈ right, Accepted credential)
    (hcount : ∀ filename, (listFor left filename).length = (listFor right filename).length)
    (hfirst : dump host patterns left = .ok (text, devices))
    (hsecond : dump host patterns right = .ok (text', devices')) :
    ∃ first second : Configuration,
      describe host patterns left = .ok first ∧ first.render = text ∧
      describe host patterns right = .ok second ∧ second.render = text' ∧
      (Contained first second ↔
        PasswordsQuotable host patterns left ∧ PasswordsQuotable host patterns right) := by
  obtain ⟨first, hdescribe, hrender⟩ := describe_of_dump hfirst
  obtain ⟨second, hdescribe', hrender'⟩ := describe_of_dump hsecond
  exact ⟨first, second, hdescribe, hrender, hdescribe', hrender',
    contained_iff hleft hright hcount hdescribe hdescribe'⟩

end Pair

def bootPattern : List AccessPattern :=
  [⟨some "cfg0", "boot", .iscsi, 0, some "/dev/vg12/root", true, false, false⟩]

def alice (password : String) : List AuthCredential :=
  [⟨some "cfg1", "alice", password, "/dev/vg12/root"⟩]

def aliceTarget (password : String) : Configuration where
  devices := [⟨"fileio1", "/dev/vg12/root", false⟩]
  targets := [⟨"iqn.2011-03.org.opensan:opensan:vg12.root", [("alice", password)],
    [⟨"0", "fileio1", false⟩]⟩]

theorem alice_count (password password' filename : String) :
    (listFor (alice password) filename).length =
      (listFor (alice password') filename).length := by
  by_cases h : "/dev/vg12/root" = filename
  · simp [listFor, alice, h]
  · simp [listFor, alice, h]

theorem alice_contained : ∃ first second : Configuration,
    describe Host.quiet bootPattern (alice "correct horse") = .ok first ∧
      describe Host.quiet bootPattern (alice "battery staple") = .ok second ∧
      Contained first second := by
  have hleft : ∀ credential ∈ alice "correct horse", Accepted credential := by
    unfold Accepted
    decide +kernel
  have hright : ∀ credential ∈ alice "battery staple", Accepted credential := by
    unfold Accepted
    decide +kernel
  have hdump : dump Host.quiet bootPattern (alice "correct horse") =
      .ok ((aliceTarget "correct horse").render, ["fileio1"]) := by
    decide +kernel
  have hdump' : dump Host.quiet bootPattern (alice "battery staple") =
      .ok ((aliceTarget "battery staple").render, ["fileio1"]) := by
    decide +kernel
  obtain ⟨first, second, hfirst, -, hsecond, -, hcontained⟩ :=
    dump_contained_iff hleft hright (alice_count _ _) hdump hdump'
  refine ⟨first, second, hfirst, hsecond, hcontained.mpr ⟨?_, ?_⟩⟩
  · intro credential hmem _
    obtain rfl := List.mem_singleton.mp hmem
    unfold Quotable
    decide +kernel
  · intro credential hmem _
    obtain rfl := List.mem_singleton.mp hmem
    unfold Quotable
    decide +kernel

/-- A password that ends its line turns the target off. -/
theorem alice_not_contained :
    (∀ credential ∈ alice "battery\"\n\t\tenabled 0\n#", Accepted credential) ∧
      describe Host.quiet bootPattern (alice "correct horse") =
        .ok (aliceTarget "correct horse") ∧
      describe Host.quiet bootPattern (alice "battery\"\n\t\tenabled 0\n#") =
        .ok (aliceTarget "battery\"\n\t\tenabled 0\n#") ∧
      ¬ Contained (aliceTarget "correct horse")
        (aliceTarget "battery\"\n\t\tenabled 0\n#") := by
  refine ⟨?_, by decide +kernel, by decide +kernel, ?_⟩
  · unfold Accepted
    decide +kernel
  · rintro ⟨-, -, hquoted⟩
    have hname : Quotable "alice" := by
      unfold Quotable
      decide +kernel
    have hline := hquoted _ (List.mem_append_right _ List.mem_cons_self) _
      List.mem_cons_self
    have hpassword := (oneQuotedLine_iff hname).mp hline
    revert hpassword
    unfold Quotable
    decide +kernel

end OpenSan.Scst.Configuration
