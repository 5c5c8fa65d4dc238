import Mathlib.Algebra.Order.Floor.Ring
import Mathlib.Data.Rat.Floor
import OpenSan.Matrix.Sheet

/-!
# The filters of the main page

`matrix.caller` passes the table through a list of filters before it is shown.
They change the records of the objects and leave the lines as they are, so a
filter here is a program over the records alone.  A filter raises when it uses
a cell that is not there, a `highlight` that has not been set, or a size that
has been replaced by its printed form.
-/

namespace OpenSan.Matrix

open OpenSan.Foundation OpenSan.Einarc

structure Cacheability where
  cacheable : Bool
  message : Option String
  deriving DecidableEq, Repr

structure Marks where
  records : Ref → Record
  flashcache : Table Nat Cacheability

abbrev Filter := Action Marks Error

def Marks.update (m : Marks) (ref : Ref) (f : Record → Record) : Marks :=
  { m with records := Function.update m.records ref (f (m.records ref)) }

/-! ## Sizes -/

/-- `M.size_round`: the nearest integer, ties to the even one. -/
def sizeRound (size : ℚ) : Int :=
  if size - ⌊size⌋ < 1 / 2 then ⌊size⌋
  else if 1 / 2 < size - ⌊size⌋ then ⌊size⌋ + 1
  else if ⌊size⌋ % 2 = 0 then ⌊size⌋
  else ⌊size⌋ + 1

/-- `M.mib2tib`: three decimals, without the last. -/
def mib2tib (size : ℚ) : String :=
  let thousandths := (sizeRound (size / 2 ^ 20 * 1000)).toNat
  let hundredths := thousandths % 1000 / 10
  toString (thousandths / 1000) ++ "." ++
    (if hundredths < 10 then "0" else "") ++ toString hundredths

def mibHumanize (size : ℚ) : Amount :=
  if size < 1024 then .human (toString (sizeRound size)) "MiB"
  else if size < 1024 ^ 2 then .human (toString (sizeRound (size / 1024))) "GiB"
  else .human (mib2tib size) "TiB"

/-! ## Access to the table -/

section Filters

variable (data : Data) (order : Order) (sheet : Sheet)

/-- The numbers that `ipairs( lines )` visits. -/
def Sheet.lineNumbers : List Nat :=
  (List.range' 1 sheet.lines.keys.length).takeWhile fun k =>
    (sheet.lines.lookup (k : ℚ)).isSome

def eachLine (body : Nat → Filter Unit) : Filter Unit :=
  Action.forEach sheet.lineNumbers body

def cellAt (column : Column) (row : ℚ) : Filter Ref :=
  Action.lift (nonNil "cell" (sheet.cell column row))

def onCell (column : Column) (row : ℚ) (body : Ref → Filter Unit) : Filter Unit :=
  match sheet.cell column row with
  | some ref => body ref
  | none => pure ()

def onlyIf (condition : Bool) (body : Filter Unit) : Filter Unit :=
  if condition then body else pure ()

def rowspanOf (ref : Ref) : Filter ℚ :=
  Action.query fun m => nonNil "rowspan" (m.records ref).rowspan

def amountOf (ref : Ref) : Filter ℚ :=
  Action.query fun m =>
    match (m.records ref).size with
    | .mib size => .ok size
    | .human _ _ => .error (.wrongType "size")

def checkHighlightsAttribute (ref : Ref) : Filter Unit :=
  Action.modify fun m => m.update ref fun r =>
    { r with highlight := some (r.highlight.getD {}) }

def setHighlight (ref : Ref) (f : Highlight → Highlight) : Filter Unit := do
  let highlight ← Action.query fun m => nonNil "highlight" (m.records ref).highlight
  Action.modify fun m => m.update ref fun r =>
    { r with highlight := some (f highlight) }

def setField (ref : Ref) (f : Record → Record) : Filter Unit :=
  Action.modify fun m => m.update ref f

def logicalOf : Ref → Filter (Nat × Logical)
  | .logical id => do
      let logical ← Action.lift (nonNil "logical" (data.logicals.lookup id))
      pure (id, logical)
  | _ => Action.raise (.nilValue "logical")

def volumeOf : Ref → Filter (String × Volume)
  | .volume device => do
      let volume ← Action.lift (nonNil "logical_volume" (data.volume device))
      pure (device, volume)
  | _ => Action.raise (.nilValue "logical_volume")

def patternOf : Ref → Filter (Nat × Pattern)
  | .pattern index => do
      let pattern ← Action.lift (nonNil "access_pattern" data.accessPatterns[index]?)
      pure (index, pattern)
  | _ => Action.raise (.nilValue "access_pattern")

def numericFor (start stop step : ℚ) : List ℚ :=
  (List.range (⌊(stop - start) / step⌋ + 1).toNat).map fun i : Nat =>
    start + (i : ℚ) * step

/-! ## Borders and colours -/

def highlightSessions (apLine : ℚ) (count : Nat) : Filter Unit := do
  let first ← cellAt sheet .session apLine
  let step ← rowspanOf first
  let last := apLine + ((count : ℚ) - 1) * step
  Action.forEach (numericFor apLine last step) fun sLine => do
    let session ← cellAt sheet .session sLine
    checkHighlightsAttribute session
    setHighlight session fun h => { h with right := true }
    onlyIf (sLine = apLine) (setHighlight session fun h => { h with top := true })
    onlyIf (sLine = last) (setHighlight session fun h => { h with bottom := true })

def highlightPattern (volumeLine rowspan : ℚ) (count i : Nat) : Filter Unit := do
  let apLine := volumeLine + i * rowspan
  let accessPattern ← cellAt sheet .pattern apLine
  checkHighlightsAttribute accessPattern
  setHighlight accessPattern fun h => { h with right := true }
  let entry ← patternOf data accessPattern
  onlyIf (sheet.sessionsAvail entry.1 ≠ []) do
    setHighlight accessPattern fun h => { h with right := false }
    highlightSessions sheet apLine (sheet.sessionsAvail entry.1).length
  onlyIf (i = 0) (setHighlight accessPattern fun h => { h with top := true })
  onlyIf (i + 1 = count)
    (setHighlight accessPattern fun h => { h with bottom := true })

def highlightVolume (volumeRowspan row : ℚ) : Filter Unit := do
  let logicalVolume ← cellAt sheet .volume row
  checkHighlightsAttribute logicalVolume
  let entry ← volumeOf data logicalVolume
  let count := (patternTable data entry.1).keys.length
  onlyIf (count ≠ 0) do
    Action.forEach (List.range count)
      (highlightPattern data sheet row (volumeRowspan / count) count)
  setHighlight logicalVolume fun h => { h with right := decide (count = 0) }

def highlightPhysicals (currentLine : Nat) (futureLine rowspan : ℚ) :
    Filter Unit :=
  Action.forEach (numericFor currentLine (futureLine - 1) rowspan) fun i => do
    let physical ← cellAt sheet .physical i
    checkHighlightsAttribute physical
    setHighlight physical fun h => { h with left := true }

def highlightVolumes (currentLine : Nat) (futureLine rowspan : ℚ) : Filter Unit :=
  Action.forEach (numericFor currentLine (futureLine - 1) rowspan)
    (highlightVolume data sheet rowspan)

def highlightLogical (currentLine : Nat) (logical : Ref) : Filter Unit := do
  checkHighlightsAttribute logical
  let physical ← cellAt sheet .physical currentLine
  setHighlight physical fun h => { h with top := true }
  setHighlight physical fun h => { h with left := true }
  setHighlight logical fun h => { h with top := true }
  let entry ← logicalOf data logical
  let quantity := entry.2.volumes.keys.length
  let volumeRowspan ← if quantity ≠ 0 then do
      let logicalVolume ← cellAt sheet .volume currentLine
      rowspanOf logicalVolume
    else pure 0
  let physicalRowspan ← rowspanOf physical
  if quantity = 0 then setHighlight logical fun h => { h with right := true }
  else do
    let logicalVolume ← cellAt sheet .volume currentLine
    checkHighlightsAttribute logicalVolume
    setHighlight logicalVolume fun h => { h with top := true }
    setHighlight logicalVolume fun h => { h with right := true }
  let height ← rowspanOf logical
  let futureLine : ℚ := currentLine + height
  highlightPhysicals sheet currentLine futureLine physicalRowspan
  onlyIf (quantity ≠ 0) (highlightVolumes data sheet currentLine futureLine volumeRowspan)
  let lastPhysical ← cellAt sheet .physical (futureLine - physicalRowspan)
  setHighlight lastPhysical fun h => { h with bottom := true }
  setHighlight logical fun h => { h with bottom := true }
  onlyIf (quantity ≠ 0) do
    let lastVolume ← cellAt sheet .volume (futureLine - volumeRowspan)
    setHighlight lastVolume fun h => { h with bottom := true }

def filterBordersHighlight : Filter Unit :=
  eachLine sheet fun k => do
    onCell sheet .physical k checkHighlightsAttribute
    onCell sheet .logical k (highlightLogical data sheet k)

/-- A loop over the lines that takes the two colours in turn: the body says
whether it has used the colour. -/
def alternate (colors : String × String) (body : String → Nat → Filter Bool) :
    List Nat → Bool → Filter Unit
  | [], _ => pure ()
  | k :: ks, second => do
      let used ← body (if second then colors.2 else colors.1) k
      alternate colors body ks (second != used)

def setColor (color : String) (ref : Ref) : Filter Unit :=
  setHighlight ref fun h => { h with color := some color }

def setBackground (color : Option String) (ref : Ref) : Filter Unit :=
  setHighlight ref fun h => { h with backgroundColor := color }

def filterAlternationBorderColors : Filter Unit :=
  alternate ("green", "blue") (fun color k =>
    match sheet.cell .logical k with
    | none => pure false
    | some logical => do
        setColor color logical
        let entry ← logicalOf data logical
        Action.forEach (order.visit (sheet.members entry.1)) fun id =>
          setColor color (.physical id)
        Action.forEach (order.visit entry.2.volumes.keys) fun device => do
          setColor color (.volume device)
          Action.forEach (order.visit (patternTable data device).entries) fun bound => do
            setColor color (.pattern bound.2)
            Action.forEach (sheet.sessionsAvail bound.2) (setColor color)
        pure true)
    sheet.lineNumbers false

def filterHighlightSnapshots : Filter Unit :=
  alternate ("normal_color", "light_color") (fun color k =>
    match sheet.cell .volume k with
    | none => pure false
    | some logicalVolume => do
        let entry ← volumeOf data logicalVolume
        if entry.2.isSnapshot then pure false
        else do
          setBackground (some color) logicalVolume
          Action.forEach entry.2.snapshots fun snapshot =>
            setBackground (some color) (.volume snapshot)
          pure true)
    sheet.lineNumbers false

def backgroundFrom (device : String) : Filter Unit := do
  let highlight ← Action.query fun m =>
    nonNil "highlight" (m.records (.volume device)).highlight
  Action.forEach (order.visit (patternTable data device).entries) fun bound =>
    setBackground highlight.backgroundColor (.pattern bound.2)

def filterHighlightAccesssPatterns : Filter Unit :=
  eachLine sheet fun k => onCell sheet .volume k fun logicalVolume => do
    let entry ← volumeOf data logicalVolume
    onlyIf (entry.2.isSnapshot = false) do
      onlyIf ((patternTable data entry.1).keys ≠ []) (backgroundFrom data order entry.1)
      Action.forEach entry.2.snapshots fun snapshot =>
        onlyIf ((patternTable data snapshot).keys ≠ [])
          (backgroundFrom data order snapshot)

def filterHighlightSessions : Filter Unit :=
  alternate ("normal_color", "light_color") (fun color k =>
    match sheet.cell .session k with
    | none => pure false
    | some session => do
        setBackground (some color) session
        pure true)
    sheet.lineNumbers false

/-! ## Numbers and permissions -/

/-- The rounded-up percentage; dividing zero by zero gives no number. -/
def percentage (allocated total : ℚ) : Option Int :=
  if total = 0 then if allocated = 0 then none else some 0
  else some ⌈100 * allocated / total⌉

def filterVolumeGroupPercentage : Filter Unit :=
  eachLine sheet fun k => onCell sheet .volume k fun logicalVolume => do
    let entry ← volumeOf data logicalVolume
    let group := entry.2.group
    let allocated ← amountOf (.group group.name)
    setField (.group group.name) fun r =>
      { r with percentage := percentage allocated group.total }

def filterAddLogicalIdToPhysical : Filter Unit :=
  eachLine sheet fun k => onCell sheet .logical k fun logical => do
    let entry ← logicalOf data logical
    Action.forEach (order.visit (sheet.members entry.1)) fun id =>
      setField (.physical id) fun r => { r with logicalId := some entry.1 }

def raidlevelsHotspareCompatible : List String := ["1", "4", "5", "6", "10"]

def minimalSize : List PhysicalId → Option ℚ → Filter (Option ℚ)
  | [], minimal => pure minimal
  | id :: ids, minimal => do
      let size ← amountOf (.physical id)
      minimalSize ids (match minimal with
        | none => some size
        | some least => some (if size < least then size else least))

def hotspares (physical : Ref) :
    List Nat → List (Nat × ℚ) → Filter (List (Nat × ℚ))
  | [], found => pure found
  | k :: ks, found =>
      match sheet.cell .logical k with
      | none => hotspares physical ks found
      | some logical => do
          let entry ← logicalOf data logical
          if entry.2.level.any (· ∈ raidlevelsHotspareCompatible) then do
            let minimal ← minimalSize (order.visit (sheet.members entry.1)) none
            let size ← amountOf physical
            hotspares physical ks (match minimal with
              | none => found
              | some least =>
                  if least ≤ size then found ++ [(entry.1, (sizeRound least : ℚ))]
                  else found)
          else hotspares physical ks found

def filterCalculateHotspares : Filter Unit :=
  eachLine sheet fun k => onCell sheet .physical k fun physical => do
    let state ← Action.read fun m : Marks => (m.records physical).state
    onlyIf (state = "free") do
      let found ← hotspares data order sheet physical sheet.lineNumbers []
      if found = [] then
        setField physical fun r => { r with hotspareAvailability := none }
      else do
        let ids ← Action.lift
          (Sort.sort (fun a b => decide (a < b)) (found.map (·.1)))
        setField physical fun r => { r with
          hotspareAvailability := some ids
          hotspareMinimalSizes := found }

def cacheability (logical : Logical) : Cacheability :=
  let reasons :=
    (if logical.state ≠ "normal" then ["Array must be in \"normal\" state"] else []) ++
    (if logical.volumes.keys.any (fun device => (patternTable data device).keys ≠ []) then
      ["Unbind all Access patterns"] else []) ++
    (if logical.cachedBy.isSome then ["Already cached"] else [])
  -- each reason overwrites the message of the one before
  { cacheable := reasons.isEmpty, message := reasons.getLast? }

def filterCalculateFlashcache : Filter Unit :=
  eachLine sheet fun k => onCell sheet .logical k fun logical => do
    let entry ← logicalOf data logical
    Action.modify fun m => { m with
      flashcache := m.flashcache.insert entry.1 (cacheability data entry.2) }

def filterDeletabilityLogical : Filter Unit :=
  eachLine sheet fun k => onCell sheet .logical k fun logical => do
    let entry ← logicalOf data logical
    setField logical fun r =>
      { r with deletable := some (decide (entry.2.volumes.keys.length = 0)) }

def filterDeletabilityLogicalVolume : Filter Unit :=
  eachLine sheet fun k => onCell sheet .volume k fun logicalVolume => do
    let entry ← volumeOf data logicalVolume
    setField logicalVolume fun r =>
      { r with deletable := some (decide ((patternTable data entry.1).keys = [])) }

def filterResizabilityLogicalVolume : Filter Unit :=
  eachLine sheet fun k => onCell sheet .volume k fun logicalVolume => do
    let entry ← volumeOf data logicalVolume
    onlyIf (entry.2.isSnapshot = false) <| setField logicalVolume fun r =>
      { r with resizable := some (decide (entry.2.snapshots = [])) }

def filterUnbindabilityAccessPattern : Filter Unit :=
  eachLine sheet fun k => onCell sheet .pattern k fun accessPattern => do
    setField accessPattern fun r => { r with unbindable := some true }
    let entry ← patternOf data accessPattern
    onlyIf (entry.2.lun = 0) <|
      eachLine sheet fun inner => onCell sheet .pattern inner fun other => do
        let otherEntry ← patternOf data other
        onlyIf (otherEntry.2.lun ≠ 0 ∧ otherEntry.2.filename = entry.2.filename) <|
          setField accessPattern fun r => { r with unbindable := some false }

def Ref.diskId : Ref → Option PhysicalId
  | .physical id | .free id => some id
  | _ => none

def cacheInUse : List Nat → Bool → Filter Bool
  | [], inUse => pure inUse
  | k :: ks, inUse =>
      match sheet.cell .logical k with
      | none => cacheInUse ks inUse
      | some logical => do
          let entry ← logicalOf data logical
          cacheInUse ks (inUse || (entry.2.cachedBy.isSome &&
            entry.2.volumes.keys.any fun device => (patternTable data device).keys ≠ []))

def filterUnbindabilityPhysicalFlashcache : Filter Unit :=
  eachLine sheet fun k => onCell sheet .logical k fun logical => do
    let entry ← logicalOf data logical
    onlyIf entry.2.cachedBy.isSome do
      let inUse ← cacheInUse data sheet sheet.lineNumbers false
      eachLine sheet fun inner => onCell sheet .physical inner fun physical =>
        onlyIf (physical.diskId = entry.2.cachedBy) <|
          setField physical fun r => { r with unbindable := some !inUse }

/-! ## Printed sizes -/

def humanize (ref : Ref) : Filter Unit := do
  let size ← amountOf ref
  setField ref fun r => { r with sizeMib := some size, size := mibHumanize size }

def humanizeGroup (logical : Logical) : Filter Unit :=
  match logical.volumeGroup with
  | some group => humanize (.group group.name)
  | none => pure ()

def filterMibHumanize : Filter Unit :=
  eachLine sheet fun k => do
    onCell sheet .physical k humanize
    onCell sheet .logical k fun logical => do
      humanize logical
      let entry ← logicalOf data logical
      humanizeGroup entry.2
    onCell sheet .volume k humanize

/-- The filters of `M.caller` before `filter_mib_humanize`. -/
def earlyFilters : List (Filter Unit) :=
  [filterBordersHighlight data sheet,
   filterAlternationBorderColors data order sheet,
   filterHighlightSnapshots data sheet,
   filterHighlightAccesssPatterns data order sheet,
   filterHighlightSessions sheet,
   filterVolumeGroupPercentage data sheet,
   filterAddLogicalIdToPhysical data order sheet,
   filterCalculateHotspares data order sheet,
   filterCalculateFlashcache data sheet,
   filterDeletabilityLogical data sheet,
   filterDeletabilityLogicalVolume data sheet,
   filterResizabilityLogicalVolume data sheet,
   filterUnbindabilityAccessPattern data sheet,
   filterUnbindabilityPhysicalFlashcache data sheet]

def filterChain : Filter Unit := do
  Action.forEach (earlyFilters data order sheet) fun filter => filter
  filterMibHumanize data sheet

end Filters

def Data.page (data : Data) (order : Order) : Except Error Sheet :=
  match overall data order data.initial with
  | (.error e, _) => .error e
  | (.ok _, sheet) =>
      match filterChain data order sheet ⟨sheet.records, ∅⟩ with
      | (.error e, _) => .error e
      | (.ok _, marks) => .ok { sheet with records := marks.records }

end OpenSan.Matrix
