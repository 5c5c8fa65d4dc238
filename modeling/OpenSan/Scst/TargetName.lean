import OpenSan.Lvm.Names
import OpenSan.Scst.Records

/-!
# Which volumes a target name tells apart

The name of an iSCSI target is the device path of the volume with every
character outside the IQN alphabet replaced by a dot.  The volume group is
always recovered from it.  The volume name is recovered only up to the
characters `.`, `_` and `+`: all three are legal in a name and only the first
is legal in a target name.
-/

namespace OpenSan.Scst

open OpenSan.Foundation

/-! ## The device pattern -/

private theorem matchHere_second_capture (volume : List Char)
    (hvolume : volume ≠ []) (closed : List (List Char)) :
    Pattern.matchHere
        (Pattern.capture (Pattern.plus Pattern.any) ++ [.finish])
        ⟨closed, none⟩ volume =
      some (closed ++ [volume]) := by
  cases volume with
  | nil => contradiction
  | cons c rest =>
      change Pattern.expand Pattern.any
        (Pattern.matchHere [.closeCapture, .finish]) ⟨closed, some [c]⟩ rest = _
      rw [← List.append_nil rest]
      refine Pattern.expand_eq_some (fun _ _ => rfl) ?_ ?_
      · simp [Pattern.matchHere, Pattern.Captures.close]
      · intro more tail hmore hsplit
        cases more with
        | nil => contradiction
        | cons d more => simp at hsplit

theorem anchored_devicePattern (group volume : List Char) (hgroup : group ≠ [])
    (hvolume : volume ≠ []) (hslash : '/' ∉ volume) :
    Pattern.anchored devicePattern
        ("/dev/".toList ++ (group ++ '/' :: volume)) =
      some [group, volume] := by
  unfold Pattern.anchored devicePattern
  simp only [List.append_assoc]
  rw [Pattern.matchHere_literal]
  cases group with
  | nil => contradiction
  | cons c rest =>
      change Pattern.expand Pattern.any (Pattern.matchHere
        (.closeCapture :: Pattern.literal "/" ++
          (Pattern.capture (Pattern.plus Pattern.any) ++ [.finish])))
        ⟨[], some [c]⟩ (rest ++ '/' :: volume) = _
      refine Pattern.expand_eq_some (fun _ _ => rfl) ?_ ?_
      · rw [Pattern.Captures.takeAll_inside]
        change Pattern.matchHere
          (Pattern.capture (Pattern.plus Pattern.any) ++ [.finish])
          ⟨[(rest.reverse ++ [c]).reverse], none⟩ volume = _
        rw [matchHere_second_capture volume hvolume]
        simp
      · -- a longer first capture would have to end before a slash of the volume
        intro more tail hmore hsplit
        cases more with
        | nil => contradiction
        | cons d more =>
            have htail : volume = more ++ tail := by
              simpa using (List.cons.inj hsplit).2
            cases tail with
            | nil => rfl
            | cons e tail =>
                have he : e ≠ '/' := by
                  rintro rfl
                  exact hslash (by simp [htail])
                have hne : (e == '/') = false := by simpa using he
                change (if (e == '/') = true then _ else none) = none
                simp [hne]

/-! ## Characters -/

def isSeparator (c : Char) : Bool := c == '.' || c == '_' || c == '+'

/-- Names that differ only in which of `.`, `_` and `+` stands where. -/
def SameUpToSeparators (first second : String) : Prop :=
  List.Forall₂ (fun c d => c = d ∨ isSeparator c = true ∧ isSeparator d = true)
    first.toList second.toList

instance (first second : String) :
    Decidable (SameUpToSeparators first second) := by
  unfold SameUpToSeparators
  infer_instance

def stripCharacter (c : Char) : Char := if iqnCharacter c then c else '.'

theorem stripUnallowedCharacters_eq (text : List Char) :
    stripUnallowedCharacters text = text.map stripCharacter := rfl

theorem stripCharacter_name {c : Char} (hc : Lvm.nameCharacter c = true) :
    stripCharacter c = if isSeparator c then '.' else c := by
  unfold stripCharacter
  by_cases hsep : isSeparator c = true
  · have hcases : c = '.' ∨ c = '_' ∨ c = '+' := by
      simpa [isSeparator, or_assoc] using hsep
    rcases hcases with rfl | rfl | rfl <;> decide
  · have hiqn : iqnCharacter c = true := by
      simp only [Lvm.nameCharacter, isSeparator, iqnCharacter, Bool.or_eq_true,
        beq_iff_eq] at hc hsep ⊢
      tauto
    simp [hiqn, hsep]

theorem stripCharacter_eq_iff {c d : Char} (hc : Lvm.nameCharacter c = true)
    (hd : Lvm.nameCharacter d = true) :
    stripCharacter c = stripCharacter d ↔
      c = d ∨ isSeparator c = true ∧ isSeparator d = true := by
  have hdot : isSeparator '.' = true := by decide
  rw [stripCharacter_name hc, stripCharacter_name hd]
  by_cases hsc : isSeparator c = true <;> by_cases hsd : isSeparator d = true
  · simp [hsc, hsd]
  · simp only [hsc, hsd, if_true, if_false, and_false, or_false,
      Bool.false_eq_true]
    constructor
    · rintro rfl
      exact absurd hdot hsd
    · rintro rfl
      exact absurd hsc hsd
  · simp only [hsc, hsd, if_true, if_false, false_and, or_false,
      Bool.false_eq_true]
    constructor
    · rintro rfl
      exact absurd hdot hsc
    · rintro rfl
      exact absurd hsd hsc
  · simp [hsc, hsd]

theorem map_stripCharacter_eq_iff {first second : String}
    (hfirst : ∀ c ∈ first.toList, Lvm.nameCharacter c = true)
    (hsecond : ∀ c ∈ second.toList, Lvm.nameCharacter c = true) :
    first.toList.map stripCharacter = second.toList.map stripCharacter ↔
      SameUpToSeparators first second := by
  unfold SameUpToSeparators
  generalize first.toList = firstText at *
  generalize second.toList = secondText at *
  induction firstText generalizing secondText with
  | nil => cases secondText <;> simp
  | cons c firstText ih =>
      cases secondText with
      | nil => simp
      | cons d secondText =>
          have hstep := stripCharacter_eq_iff (hfirst c (by simp))
            (hsecond d (by simp))
          have hrest := ih (fun x hx => hfirst x (by simp [hx])) secondText
            (fun x hx => hsecond x (by simp [hx]))
          simp only [List.map_cons, List.cons.injEq, List.forall₂_cons, hstep,
            hrest]

theorem stripCharacter_group {c : Char}
    (hc : c = 'v' ∨ c = 'g' ∨ c.isDigit = true) :
    stripCharacter c = c ∧ c ≠ '.' := by
  rcases hc with rfl | rfl | hdigit
  · decide
  · decide
  · have hclass : Pattern.digit c = true := by
      simpa [Pattern.digit, Char.isDigit, Char.le_def] using hdigit
    constructor
    · simp [stripCharacter, iqnCharacter, Pattern.alphanumeric, hclass]
    · rintro rfl
      exact absurd hdigit (by decide)

private theorem append_dot_inj {first second restFirst restSecond : List Char}
    (hfirst : '.' ∉ first) (hsecond : '.' ∉ second) :
    first ++ '.' :: restFirst = second ++ '.' :: restSecond ↔
      first = second ∧ restFirst = restSecond := by
  induction first generalizing second with
  | nil =>
      cases second with
      | nil => simp
      | cons d second =>
          have hd : d ≠ '.' := by
            rintro rfl
            simp at hsecond
          simp [Ne.symm hd]
  | cons c first ih =>
      have hc : c ≠ '.' := by
        rintro rfl
        simp at hfirst
      cases second with
      | nil => simp [hc]
      | cons d second =>
          have hrest := @ih second (fun h => hfirst (by simp [h]))
            (fun h => hsecond (by simp [h]))
          simp only [List.cons_append, List.cons.injEq, hrest, and_assoc]

/-! ## Target names -/

theorem vglvDevice_toList (group volume : String) :
    (Lvm.vglvDevice group volume).toList =
      "/dev/".toList ++ (group.toList ++ '/' :: volume.toList) := by
  simp [Lvm.vglvDevice]

private theorem slash_not_mem_name {volume : String}
    (hvolume : ∀ c ∈ volume.toList, Lvm.nameCharacter c = true) :
    '/' ∉ volume.toList := by
  intro hmem
  exact absurd (hvolume '/' hmem) (by decide)

theorem iqn_vglvDevice (hostname : String) (random time : Nat)
    {volume : String} (hvolume : Lvm.nameIsValid volume = true) :
    iqn (some hostname) (Lvm.vglvDevice (Lvm.nextVgName random time) volume) =
      .ok (String.ofList
        ("iqn.2011-03.org.opensan:".toList.map stripCharacter ++
          (hostname.toList.map stripCharacter ++
            (':' :: ((Lvm.nextVgName random time).toList ++
              '.' :: volume.toList.map stripCharacter))))) := by
  obtain ⟨hne, hchars⟩ := Lvm.nameIsValid_characters hvolume
  have hgroup := Lvm.nextVgName_characters random time
  have hgroupNe : (Lvm.nextVgName random time).toList ≠ [] := by
    simp [Lvm.nextVgName]
  have hstrip : (Lvm.nextVgName random time).toList.map stripCharacter =
      (Lvm.nextVgName random time).toList := by
    rw [List.map_congr_left fun c hc => (stripCharacter_group (hgroup c hc)).1]
    exact List.map_id _
  unfold iqn
  rw [vglvDevice_toList, anchored_devicePattern _ _ hgroupNe hne
    (slash_not_mem_name hchars)]
  simp only [stripUnallowedCharacters_eq, List.map_append, List.map_cons, hstrip,
    List.append_assoc, List.cons_append, List.nil_append]
  rfl

def Separated (hostname first second : String) : Prop :=
  ∃ firstTarget secondTarget,
    iqn (some hostname) first = .ok firstTarget ∧
    iqn (some hostname) second = .ok secondTarget ∧
    (first ≠ second → firstTarget ≠ secondTarget)

theorem vglvDevice_eq_iff {group₁ group₂ volume₁ volume₂ : String}
    (h₁ : Lvm.nameIsValid volume₁ = true)
    (h₂ : Lvm.nameIsValid volume₂ = true) (hne₁ : group₁.toList ≠ [])
    (hne₂ : group₂.toList ≠ []) :
    Lvm.vglvDevice group₁ volume₁ = Lvm.vglvDevice group₂ volume₂ ↔
      group₁ = group₂ ∧ volume₁ = volume₂ := by
  constructor
  · intro heq
    obtain ⟨hvol₁, hchars₁⟩ := Lvm.nameIsValid_characters h₁
    obtain ⟨hvol₂, hchars₂⟩ := Lvm.nameIsValid_characters h₂
    have hmatch := congrArg (fun device : String =>
      Pattern.anchored devicePattern device.toList) heq
    simp only [vglvDevice_toList] at hmatch
    rw [anchored_devicePattern _ _ hne₁ hvol₁ (slash_not_mem_name hchars₁),
      anchored_devicePattern _ _ hne₂ hvol₂ (slash_not_mem_name hchars₂)]
      at hmatch
    simpa [String.toList_inj] using hmatch
  · rintro ⟨rfl, rfl⟩
    rfl

/--
Target names separate two volumes exactly when their groups differ, or their
names are equal, or their names differ in more than the choice between the
characters `.`, `_` and `+`.
-/
theorem separated_iff (hostname : String) (random₁ time₁ random₂ time₂ : Nat)
    (volume₁ volume₂ : String) (h₁ : Lvm.nameIsValid volume₁ = true)
    (h₂ : Lvm.nameIsValid volume₂ = true) :
    Separated hostname
        (Lvm.vglvDevice (Lvm.nextVgName random₁ time₁) volume₁)
        (Lvm.vglvDevice (Lvm.nextVgName random₂ time₂) volume₂) ↔
      Lvm.nextVgName random₁ time₁ ≠ Lvm.nextVgName random₂ time₂ ∨
        volume₁ = volume₂ ∨ ¬ SameUpToSeparators volume₁ volume₂ := by
  have hne : ∀ random time, (Lvm.nextVgName random time).toList ≠ [] := by
    simp [Lvm.nextVgName]
  have hdot : ∀ random time, '.' ∉ (Lvm.nextVgName random time).toList := by
    intro random time hmem
    exact (stripCharacter_group
      (Lvm.nextVgName_characters random time '.' hmem)).2 rfl
  have hsame := map_stripCharacter_eq_iff (Lvm.nameIsValid_characters h₁).2
    (Lvm.nameIsValid_characters h₂).2
  unfold Separated
  rw [iqn_vglvDevice hostname random₁ time₁ h₁,
    iqn_vglvDevice hostname random₂ time₂ h₂]
  have htargets : ∀ {P : String → String → Prop} {a b : String},
      (∃ x y, (Except.ok a : Except Error String) = .ok x ∧
        (Except.ok b : Except Error String) = .ok y ∧ P x y) ↔ P a b := by
    intro P a b
    constructor
    · rintro ⟨x, y, hx, hy, hxy⟩
      cases hx
      cases hy
      exact hxy
    · intro hab
      exact ⟨a, b, rfl, rfl, hab⟩
  rw [htargets, Ne, vglvDevice_eq_iff h₁ h₂ (hne _ _) (hne _ _), Ne,
    String.ofList_inj, List.append_cancel_left_eq, List.append_cancel_left_eq,
    List.cons.injEq, append_dot_inj (hdot _ _) (hdot _ _), hsame,
    String.toList_inj]
  tauto

/-- Every two volumes in groups of different names are separated. -/
theorem separated_different_groups :
    Separated "opensan" (Lvm.vglvDevice (Lvm.nextVgName 1 2) "data_1")
      (Lvm.vglvDevice (Lvm.nextVgName 1 3) "data.1") :=
  (separated_iff "opensan" 1 2 1 3 "data_1" "data.1" (by decide +kernel)
    (by decide +kernel)).mpr (.inl (by decide +kernel))

/-- Two volumes of one group whose names differ in a separator share a target. -/
theorem not_separated_separator :
    ¬ ∀ (hostname : String) (random₁ time₁ random₂ time₂ : Nat)
      (volume₁ volume₂ : String), Lvm.nameIsValid volume₁ = true →
      Lvm.nameIsValid volume₂ = true →
      Separated hostname
        (Lvm.vglvDevice (Lvm.nextVgName random₁ time₁) volume₁)
        (Lvm.vglvDevice (Lvm.nextVgName random₂ time₂) volume₂) := by
  intro hall
  obtain ⟨first, second, hfirst, hsecond, hne⟩ :=
    hall "opensan" 1 2 1 2 "data_1" "data.1" (by decide +kernel)
      (by decide +kernel)
  have hiqn : iqn (some "opensan")
        (Lvm.vglvDevice (Lvm.nextVgName 1 2) "data_1") =
      iqn (some "opensan")
        (Lvm.vglvDevice (Lvm.nextVgName 1 2) "data.1") := by
    decide +kernel
  rw [hfirst, hsecond] at hiqn
  exact hne (by decide +kernel) (Except.ok.inj hiqn)

end OpenSan.Scst
