import Mathlib.Data.List.Dedup
import OpenSan.Controller.StoreInvariant

/-!
# The credential store

A request selects a credential by the hash of its section, while deleting and
taking back go by user name and volume.  Both hit one credential only because
no user name is stored twice for a volume, and only the handler that adds
credentials sees to that.
-/

namespace OpenSan.Controller

open OpenSan.Foundation
open OpenSan.Scst

/-- What `delete_by_username_and_filename` compares. -/
def credentialKey (credential : AuthCredential) : String × String :=
  (credential.username, credential.filename)

structure CredentialsOk (credentials : List AuthCredential) : Prop where
  usernames : ∀ credential ∈ credentials,
    AuthCredential.usernameIsValid credential.username = true
  passwords : ∀ credential ∈ credentials, 12 ≤ credential.password.length
  keys : (credentials.map credentialKey).Nodup

theorem CredentialsOk.empty : CredentialsOk [] where
  usernames := by simp
  passwords := by simp
  keys := List.nodup_nil

theorem CredentialsOk.sublist {credentials fewer : List AuthCredential}
    (h : CredentialsOk credentials) (hfewer : List.Sublist fewer credentials) :
    CredentialsOk fewer where
  usernames := fun credential hmem => h.usernames credential (hfewer.subset hmem)
  passwords := fun credential hmem => h.passwords credential (hfewer.subset hmem)
  keys := h.keys.sublist (hfewer.map credentialKey)

structure Addable (credentials : List AuthCredential) (record : AuthCredential) :
    Prop where
  username : AuthCredential.usernameIsValid record.username = true
  password : 12 ≤ record.password.length
  free : ∀ other ∈ credentials, credentialKey other ≠ credentialKey record

theorem CredentialsOk.append {credentials : List AuthCredential}
    {record : AuthCredential} (h : CredentialsOk credentials)
    (hrecord : Addable credentials record) :
    CredentialsOk (credentials ++ [record]) where
  usernames := by
    intro credential hmem
    rcases List.mem_append.mp hmem with hold | hnew
    · exact h.usernames credential hold
    · rw [List.mem_singleton.mp hnew]
      exact hrecord.username
  passwords := by
    intro credential hmem
    rcases List.mem_append.mp hmem with hold | hnew
    · exact h.passwords credential hold
    · rw [List.mem_singleton.mp hnew]
      exact hrecord.password
  keys := by
    rw [List.map_append, List.nodup_append]
    refine ⟨h.keys, by simp, ?_⟩
    intro key hmem key' hmem' heq
    obtain ⟨other, hother, rfl⟩ := List.mem_map.mp hmem
    simp only [List.map_cons, List.map_nil, List.mem_singleton] at hmem'
    exact hrecord.free other hother (heq.trans hmem')

/-! ## Deleting by user name and volume -/

theorem kept_iff {username filename : String} {other : AuthCredential} :
    (!(other.username == username && other.filename == filename)) = true ↔
      credentialKey other ≠ (username, filename) := by
  simp [credentialKey, imp_iff_not_or]

theorem delete_append {credentials : List AuthCredential} {record : AuthCredential}
    (hfree : ∀ other ∈ credentials, credentialKey other ≠ credentialKey record) :
    ((credentials ++ [record]).filter fun other =>
      !(other.username == record.username && other.filename == record.filename)) =
        credentials := by
  have hkept : (credentials.filter fun other =>
      !(other.username == record.username && other.filename == record.filename)) =
        credentials := by
    rw [List.filter_eq_self]
    intro other hother
    exact kept_iff.mpr (hfree other hother)
  rw [List.filter_append, hkept]
  simp

theorem CredentialsOk.delete_eq_erase {credentials : List AuthCredential}
    {credential : AuthCredential} (h : CredentialsOk credentials)
    (hmem : credential ∈ credentials) :
    (credentials.filter fun other =>
      !(other.username == credential.username &&
        other.filename == credential.filename)) = credentials.erase credential := by
  have hnodup : credentials.Nodup := h.keys.of_map credentialKey
  rw [hnodup.erase_eq_filter]
  apply List.filter_congr
  intro other hother
  by_cases hsame : other = credential
  · simp [hsame]
  · have hkey : credentialKey other ≠ credentialKey credential :=
      fun heq => hsame (List.inj_on_of_nodup_map h.keys hother hmem heq)
    rw [kept_iff.mpr hkey]
    simpa using hsame

/-! ## What the two requests do -/

/-- The credentials are as before, or a call of `Daemon.apply` has accepted an
appended record. -/
def AddEffect (world after : World) : Prop :=
  after.credentials = world.credentials ∨
  ∃ record call, Addable world.credentials record ∧
    after.credentials = world.credentials ++ [record] ∧
    after.applied = world.applied ++ [call] ∧ call.result = .ok ()

private theorem new_checked {name secret device : String}
    (hname : AuthCredential.usernameIsValid name = true)
    (hsecret : 12 ≤ secret.length) :
    AuthCredential.new none (some name) (some secret) (some device) =
      .ok ⟨none, name, secret, device⟩ := by
  simp [AuthCredential.new, AuthCredential.passwordLength, hname, hsecret]

private theorem save_checked (host : Host) {name secret device : String}
    (hname : AuthCredential.usernameIsValid name = true)
    (hsecret : 12 ≤ secret.length) (world : World) :
    AuthCredential.save host ⟨none, name, secret, device⟩ world =
      (.ok (), { world with credentials := world.credentials ++
        [⟨some (host.uciAdd (world.credentials.map AuthCredential.sectionName)),
          name, secret, device⟩] }) := by
  simp [AuthCredential.save, new_checked hname hsecret]

theorem apply_applied (host : Host) (world : World) :
    (Daemon.apply host world).2.applied =
      world.applied ++ [Daemon.record host world] := rfl

theorem add_effect (host : Host) (device : String)
    (username password : Option String) (world : World) :
    AddEffect world (scstAuthCredentialAdd host device username password world).2 := by
  refine Action.final_ite (fun _ => .inl rfl) fun _ => ?_
  refine Action.final_lift (fun _ _ => .inl rfl) fun name _ => ?_
  refine Action.final_ite (fun _ => .inl rfl) fun hinvalid => ?_
  refine Action.final_read (Action.final_ite (fun _ => .inl rfl) fun htaken => ?_)
  refine Action.final_lift (fun _ _ => .inl rfl) fun secret _ => ?_
  refine Action.final_ite (fun _ => .inl rfl) fun hshort => ?_
  have hname : AuthCredential.usernameIsValid name = true := by simpa using hinvalid
  have hsecret : 12 ≤ secret.length := by omega
  rw [new_checked hname hsecret]
  refine Action.final_pcall ?_
  rw [save_checked host hname hsecret]
  generalize hrecord : (⟨some (host.uciAdd (world.credentials.map
    AuthCredential.sectionName)), name, secret, device⟩ : AuthCredential) = record
  have haddable : Addable world.credentials record := by
    subst hrecord
    refine ⟨hname, hsecret, fun other hother heq => htaken ?_⟩
    obtain ⟨huser, hfile⟩ := Prod.mk.inj heq
    rw [List.any_eq_true]
    exact ⟨other, by simp [Configuration.listFor, hother, hfile], by simpa using huser⟩
  have hrecorded : record.username = name ∧ record.filename = device := by
    subst hrecord
    exact ⟨rfl, rfl⟩
  generalize hsaved : ({ world with
    credentials := world.credentials ++ [record] } : World) = saved
  have hstore := (Daemon.apply_store host saved).2
  refine Action.final_pcall ?_
  cases hresult : (Daemon.apply host saved).1 with
  | ok _ =>
      refine .inr ⟨record, Daemon.record host saved, haddable, ?_, ?_, hresult⟩
      · exact hstore.trans (congrArg World.credentials hsaved.symm)
      · rw [← hsaved]
        exact apply_applied host _
  | error e =>
      refine Action.final_thenPure (.inl ?_)
      rw [(Daemon.apply_store host _).2]
      have htaken : (Daemon.apply host saved).2.credentials =
          world.credentials ++ [record] :=
        hstore.trans (congrArg World.credentials hsaved.symm)
      have hback := delete_append haddable.free
      rw [hrecorded.1, hrecorded.2, ← htaken] at hback
      exact hback

def selectedCredential (host : Host) (credentials : List AuthCredential)
    (sectionNameHash : String) : Option AuthCredential :=
  match findByHash host sectionNameHash (host.order.visit
      (credentials.filterMap AuthCredential.sectionName).dedup) with
  | .error _ => none
  | .ok sectionName =>
      credentials.find? fun credential => credential.sectionName == some sectionName

theorem selectedCredential_eq_some {host : Host} {credentials : List AuthCredential}
    {sectionNameHash : String} {credential : AuthCredential}
    (h : selectedCredential host credentials sectionNameHash = some credential) :
    credential ∈ credentials ∧
      credential.sectionName.map host.hash = some sectionNameHash := by
  unfold selectedCredential at h
  split at h
  · cases h
  · rename_i sectionName hfound
    have hname : credential.sectionName = some sectionName := by
      simpa using List.find?_some h
    refine ⟨List.mem_of_find?_eq_some h, ?_⟩
    rw [hname, Option.map_some, (findByHash_eq_ok hfound).2]

theorem selectedCredential_eq_none {host : Host} {credentials : List AuthCredential}
    {sectionNameHash : String}
    (h : selectedCredential host credentials sectionNameHash = none) :
    ∀ credential ∈ credentials,
      credential.sectionName.map host.hash ≠ some sectionNameHash := by
  intro credential hmem hhash
  obtain ⟨sectionName, hsection, hhash⟩ := Option.map_eq_some_iff.mp hhash
  unfold selectedCredential at h
  split at h
  · rename_i hnone
    refine findByHash_eq_error hnone ?_ hhash
    rw [Order.mem_visit, List.mem_dedup, List.mem_filterMap]
    exact ⟨credential, hmem, hsection⟩
  · rename_i other hfound
    have hother := (findByHash_eq_ok hfound).1
    rw [Order.mem_visit, List.mem_dedup, List.mem_filterMap] at hother
    obtain ⟨holder, hholder, hname⟩ := hother
    have hno := List.find?_eq_none.mp h holder hholder
    simp [hname] at hno

def CredentialDeleteEffect (host : Host) (sectionNameHash : String)
    (world after : World) : Prop :=
  after.credentials =
    match selectedCredential host world.credentials sectionNameHash with
    | none => world.credentials
    | some credential => world.credentials.filter fun other =>
        !(other.username == credential.username &&
          other.filename == credential.filename)

theorem credentialDelete_effect (host : Host) (sectionNameHash : String)
    (world : World) :
    CredentialDeleteEffect host sectionNameHash world
      (scstAuthCredentialDelete host sectionNameHash world).2 := by
  refine Action.final_read (Action.final_lift ?_ ?_)
  · intro e herror
    simp only [CredentialDeleteEffect, selectedCredential, herror]
  · intro sectionName hfound
    refine Action.final_read (Action.final_pcall (Action.final_pcall ?_))
    simp only [CredentialDeleteEffect, selectedCredential, hfound]
    refine ((Daemon.apply_store host _).2).trans ?_
    cases world.credentials.find? fun credential =>
        credential.sectionName == some sectionName with
    | none => rfl
    | some credential => rfl

/-! ## All runs -/

def SameCredentials (before after : World) : Prop :=
  after.credentials = before.credentials

theorem SameCredentials.respects : RespectsPatterns SameCredentials where
  refl := fun _ => rfl
  trans := fun _ _ _ hab hbc => Eq.trans hbc hab
  apply := fun host world => (Daemon.apply_store host world).2
  patterns := fun _ _ => rfl
  detach := fun _ _ => rfl

theorem step_credentialsOk {world : World} (h : CredentialsOk world.credentials)
    (input : Host × Event) : CredentialsOk (step world input).credentials := by
  obtain ⟨host, event⟩ := input
  cases event with
  | pattern request =>
      have hsame := SameCredentials.respects.serve host request world
      exact hsame ▸ h
  | credentialAdd device username password =>
      rcases add_effect host device username password world with
        hsame | ⟨record, call, haddable, hafter, -, -⟩
      · exact hsame ▸ h
      · exact hafter ▸ h.append haddable
  | credentialDelete sectionNameHash =>
      have hafter := credentialDelete_effect host sectionNameHash world
      unfold CredentialDeleteEffect at hafter
      split at hafter
      · exact hafter ▸ h
      · exact hafter ▸ h.sublist List.filter_sublist
  | pageLoad devices =>
      have hsame := SameCredentials.respects.pageLoad host devices world
      exact Action.final_thenPure
        (Q := fun after : World => CredentialsOk after.credentials) (hsame ▸ h)
  | clearing =>
      have hsame := SameCredentials.respects.clearing host world
      exact Action.final_thenPure
        (Q := fun after : World => CredentialsOk after.credentials) (hsame ▸ h)

def SameStore (before after : World) : Prop :=
  after.patterns = before.patterns ∧ after.credentials = before.credentials

def FirstApplyRaised (before after : World) : Prop :=
  ∃ call later e, after.applied = before.applied ++ call :: later ∧
    call.result = .error e

/-- No credential has the hash and nothing changes, or the selected credential
goes and the rest of the store stays. -/
def RemovesSelected (host : Host) (sectionNameHash : String)
    (before after : World) : Prop :=
  after.patterns = before.patterns ∧
  match selectedCredential host before.credentials sectionNameHash with
  | none =>
      (∀ credential ∈ before.credentials,
        credential.sectionName.map host.hash ≠ some sectionNameHash) ∧
      after.credentials = before.credentials
  | some credential =>
      credential ∈ before.credentials ∧
      credential.sectionName.map host.hash = some sectionNameHash ∧
      after.credentials = before.credentials.erase credential

theorem add_rolled_back {host : Host} {device : String}
    {username password : Option String} {world : World}
    (hraised : FirstApplyRaised world
      (step world (host, .credentialAdd device username password))) :
    SameStore world (step world (host, .credentialAdd device username password)) := by
  refine ⟨SamePatterns.respects.add host device username password world, ?_⟩
  rcases add_effect host device username password world with
    hsame | ⟨record, call, -, -, happlied, hok⟩
  · exact hsame
  · obtain ⟨first, later, e, hcalls, herror⟩ := hraised
    have hcall : [call] = first :: later :=
      List.append_cancel_left (happlied.symm.trans hcalls)
    obtain ⟨hfirst, -⟩ := List.cons.inj hcall
    rw [← hfirst, hok] at herror
    cases herror

theorem delete_removesSelected (host : Host) (sectionNameHash : String)
    {world : World} (h : CredentialsOk world.credentials) :
    RemovesSelected host sectionNameHash world
      (step world (host, .credentialDelete sectionNameHash)) := by
  refine ⟨SamePatterns.respects.delete host sectionNameHash world, ?_⟩
  have hafter := credentialDelete_effect host sectionNameHash world
  unfold CredentialDeleteEffect at hafter
  cases hselected : selectedCredential host world.credentials sectionNameHash with
  | none =>
      rw [hselected] at hafter
      exact ⟨selectedCredential_eq_none hselected, hafter⟩
  | some credential =>
      obtain ⟨hmem, hhash⟩ := selectedCredential_eq_some hselected
      rw [hselected] at hafter
      exact ⟨hmem, hhash, Eq.trans hafter (h.delete_eq_erase hmem)⟩

/-- In every state reached from a store without credentials: the credentials
are well formed and their keys distinct, an addition that `Daemon.apply`
refuses leaves no trace in the store, and a deletion removes the selected
credential and nothing else. -/
theorem reachable_credentials (start : World) (hstart : start.credentials = [])
    (inputs : List (Host × Event)) :
    CredentialsOk (run step start inputs).credentials ∧
      (∀ host device username password,
        FirstApplyRaised (run step start inputs) (step (run step start inputs)
          (host, .credentialAdd device username password)) →
        SameStore (run step start inputs) (step (run step start inputs)
          (host, .credentialAdd device username password))) ∧
      ∀ host sectionNameHash,
        RemovesSelected host sectionNameHash (run step start inputs)
          (step (run step start inputs) (host, .credentialDelete sectionNameHash)) := by
  have hok : CredentialsOk (run step start inputs).credentials := by
    refine run_invariant (I := fun world : World => CredentialsOk world.credentials)
      (fun _ input h => step_credentialsOk h input) ?_ inputs
    rw [hstart]
    exact CredentialsOk.empty
  refine ⟨hok, ?_, ?_⟩
  · intro host device username password hraised
    exact add_rolled_back hraised
  · intro host sectionNameHash
    exact delete_removesSelected host sectionNameHash hok

def unnamedHost : Host := { Host.quiet with hostname := none }

def detachedHost : Host := { Host.quiet with fileExists := fun _ => some false }

def oneShared : World where
  patterns := [⟨some "cfg0", "one", .iscsi, 0, some "/dev/vg/lv", true, false, false⟩]
  credentials := []
  served := []
  applied := []

def addAs (name : String) : Event :=
  .credentialAdd "/dev/vg/lv" (some name) (some "abcdefghijkl")

def aliceStored : World := run step oneShared [(detachedHost, addAs "alice")]

theorem bob_taken_back :
    oneShared.credentials = [] ∧ aliceStored.credentials.length = 1 ∧
      FirstApplyRaised aliceStored (step aliceStored (unnamedHost, addAs "bob")) ∧
      SameStore aliceStored (step aliceStored (unnamedHost, addAs "bob")) ∧
      (step aliceStored (detachedHost, .credentialDelete
        (Host.quiet.hash "cfg0"))).credentials = [] := by
  obtain ⟨-, hadd, hdelete⟩ := reachable_credentials oneShared rfl
    [(detachedHost, addAs "alice")]
  have hraised : FirstApplyRaised aliceStored
      (step aliceStored (unnamedHost, addAs "bob")) := ⟨_, _, _, rfl, rfl⟩
  refine ⟨rfl, by decide +kernel, hraised,
    hadd unnamedHost "/dev/vg/lv" (some "bob") (some "abcdefghijkl") hraised, ?_⟩
  exact (hdelete detachedHost (Host.quiet.hash "cfg0")).2.2.2

end OpenSan.Controller
