import Psfn.Lib.Js

/-!
# Outbound disclosure — executable definitions

The contract types of `core/cogsec/disclosure/contracts.ts` and the pure decision
functions of `core/cogsec/disclosure/decision.ts`: how a source's permission list is
merged, how two lists are intersected, how sources are folded into a lineage and how
a lineage is assessed against one destination.

`localeCompare` is the collation the runtime sorts ids with; it is a parameter, and
nothing proved about the verdict depends on it.
-/

namespace Psfn.Disclosure

open Psfn.Lib

/-! ## Sensitivity (`system/trust/types.ts`) -/

inductive SensitivityLevel where
  | «public»
  | personal
  | intimate
  | confidential
deriving DecidableEq, Repr

/-- `SENSITIVITY_ORDER`. -/
def sensitivityOrd : SensitivityLevel → Nat
  | .«public» => 0
  | .personal => 1
  | .intimate => 2
  | .confidential => 3

/-- The last of `SENSITIVITY_LEVELS`. -/
def mostRestrictiveSensitivity : SensitivityLevel := .confidential

/-! ## Contract types -/

inductive DisclosureDestinationKind where
  | companionSelf
  | contactDm
  | inviteOnlyRoom
  | publicRoom
  | publication
deriving DecidableEq, Repr

/-- `DISCLOSURE_DESTINATION_KINDS`, in the order the loops visit them. -/
def disclosureDestinationKinds : List DisclosureDestinationKind :=
  [.companionSelf, .contactDm, .inviteOnlyRoom, .publicRoom, .publication]

inductive IdField where
  | channelId
  | contactId
deriving DecidableEq, Repr

/-- `DISCLOSURE_KIND_ID_FIELD`. -/
def disclosureKindIdField : DisclosureDestinationKind → Option IdField
  | .companionSelf => none
  | .contactDm => some .contactId
  | .inviteOnlyRoom => some .channelId
  | .publicRoom => some .channelId
  | .publication => none

inductive DisclosureDestination where
  | companionSelf
  | contactDm (contactId : String)
  | inviteOnlyRoom (channelId : String) (currentEpoch : Option JsNumber)
  | publicRoom (channelId : String) (currentEpoch : Option JsNumber)
  | publication
deriving DecidableEq, Repr

def DisclosureDestination.kind : DisclosureDestination → DisclosureDestinationKind
  | .companionSelf => .companionSelf
  | .contactDm _ => .contactDm
  | .inviteOnlyRoom _ _ => .inviteOnlyRoom
  | .publicRoom _ _ => .publicRoom
  | .publication => .publication

/-- One permission entry of a source. `channelEpochs` is an object keyed by channel id. -/
structure DisclosureDestinationConstraint where
  kind          : DisclosureDestinationKind
  channelIds    : Option (List String) := none
  contactIds    : Option (List String) := none
  channelEpochs : Option (JsMap String JsNumber) := none
deriving DecidableEq

inductive DisclosureClassification where
  | autoShareable
  | restricted
  | approvalRequired
  | nonShareable
deriving DecidableEq, Repr

structure DisclosureSourceSnapshot where
  ref                   : String
  sensitivity           : SensitivityLevel
  permittedDestinations : List DisclosureDestinationConstraint
  subjectContactIds     : List String
  sourceChannelId       : Option String
  classified            : Bool
deriving DecidableEq

structure DisclosureSourceContribution where
  ref                   : String
  sensitivity           : SensitivityLevel
  permittedDestinations : List DisclosureDestinationConstraint
  subjectContactIds     : Option (List String) := none
  sourceChannelId       : Option String := none
  provenanceRefs        : Option (List String) := none
  classified            : Bool
deriving DecidableEq

structure GenerationDisclosureContext where
  generationContextRef : String
  classifierVersion    : String
  classifiedAt         : String
deriving DecidableEq

structure DisclosureLineage where
  provenanceRefs        : List String
  sourceSnapshots       : List DisclosureSourceSnapshot
  effectiveSensitivity  : SensitivityLevel
  permittedDestinations : List DisclosureDestinationConstraint
  subjectContactIds     : List String
  sourceChannelIds      : List String
  generationContextRef  : String
  classification        : DisclosureClassification
  classifiedAt          : String
  classifierVersion     : String
  sourceCount           : Nat
  hasUnclassifiedSource : Bool
deriving DecidableEq

structure DisclosureDecision where
  allowed              : Bool
  outcome              : DisclosureClassification
  destination          : DisclosureDestination
  effectiveSensitivity : SensitivityLevel
  reason               : String
deriving DecidableEq

/-! ## Rule 1: most-restrictive sensitivity -/

/-- `DESTINATION_AUTO_SHAREABLE_CEILING`. -/
def destinationAutoShareableCeiling : DisclosureDestinationKind → SensitivityLevel
  | .companionSelf => .confidential
  | .contactDm => .confidential
  | .inviteOnlyRoom => .personal
  | .publicRoom => .«public»
  | .publication => .«public»

def maxSensitivity : List SensitivityLevel → SensitivityLevel
  | [] => mostRestrictiveSensitivity
  | initial :: rest =>
    (initial :: rest).foldl
      (fun highest level => if sensitivityOrd level > sensitivityOrd highest then level else highest)
      initial

/-! ## Rule 2: destination intersection -/

/-- `IdSet`: the ids of one kind a source permits, or every id of the kind. -/
inductive IdSet where
  | ids (l : List String)
  | unrestricted
deriving DecidableEq, Repr

def constraintChannelOrContactIds (c : DisclosureDestinationConstraint) : Option (List String) :=
  match disclosureKindIdField c.kind with
  | some .channelId => c.channelIds
  | some .contactId => c.contactIds
  | none => none

/-- The loop of `mergeSourceIds` over the constraints of the kind: it leaves with
`UNRESTRICTED` at the first one that carries no id list. -/
def mergeScopedIds : List String → List DisclosureDestinationConstraint → IdSet
  | acc, [] => .ids acc
  | acc, c :: rest =>
    match constraintChannelOrContactIds c with
    | none => .unrestricted
    | some scopedIds =>
      mergeScopedIds (scopedIds.foldl (fun ids id => if id ∈ ids then ids else ids ++ [id]) acc) rest

def mergeSourceIds (constraints : List DisclosureDestinationConstraint)
    (kind : DisclosureDestinationKind) : Option IdSet :=
  let matching := constraints.filter fun c => c.kind = kind
  if matching.isEmpty then none
  else if disclosureKindIdField kind = none then some .unrestricted
  else some (mergeScopedIds [] matching)

def intersectIdSets : IdSet → IdSet → IdSet
  | .unrestricted, right => right
  | left, .unrestricted => left
  | .ids left, .ids right => .ids (left.filter fun id => id ∈ right)

/-! ## Rule 4: per-channel admitted epochs -/

/-- The two collections `mergeSourceEpochs` keeps: the epochs agreed on so far and
the channels whose entries disagree. -/
structure EpochMerge where
  epochs     : JsMap String JsNumber
  conflicted : List String

def mergeEpochEntry (s : EpochMerge) (entry : String × JsNumber) : EpochMerge :=
  let (id, epoch) := entry
  if !epoch.isFinite then s
  else if id ∈ s.conflicted then s
  else match s.epochs.get id with
    | none => { s with epochs := s.epochs.set id epoch }
    | some prior =>
      if prior.strictEq epoch then s
      else { epochs := s.epochs.delete id, conflicted := s.conflicted ++ [id] }

def mergeConstraintEpochs (kind : DisclosureDestinationKind) (s : EpochMerge)
    (c : DisclosureDestinationConstraint) : EpochMerge :=
  if c.kind ≠ kind then s
  else match c.channelEpochs with
    | none => s
    | some record => record.entries.foldl mergeEpochEntry s

def mergeSourceEpochs (constraints : List DisclosureDestinationConstraint)
    (kind : DisclosureDestinationKind) : JsMap String JsNumber :=
  if disclosureKindIdField kind ≠ some .channelId then JsMap.empty
  else (constraints.foldl (mergeConstraintEpochs kind) ⟨JsMap.empty, []⟩).epochs

def IdSet.allows : IdSet → String → Bool
  | .unrestricted, _ => true
  | .ids allow, id => decide (id ∈ allow)

def intersectEpochEntry (right : JsMap String JsNumber) (keepIds : IdSet)
    (result : JsMap String JsNumber) (entry : String × JsNumber) : JsMap String JsNumber :=
  if !keepIds.allows entry.1 then result
  else match right.get entry.1 with
    | some other => if other.strictEq entry.2 then result.set entry.1 entry.2 else result
    | none => result

def intersectEpochs (left right : JsMap String JsNumber) (keepIds : IdSet) :
    JsMap String JsNumber :=
  left.entries.foldl (intersectEpochEntry right keepIds) JsMap.empty

/-! ## Canonical constraints -/

section Collation

variable (localeCompare : String → String → Int)

def sortIds (ids : List String) : List String :=
  ids.mergeSort fun a b => decide (localeCompare a b ≤ 0)

/-- `channelEpochs[id] = epoch`, for an id whose epoch is known. -/
def assignChannelEpoch (epochs : JsMap String JsNumber) (record : JsMap String JsNumber)
    (id : String) : JsMap String JsNumber :=
  match epochs.get id with
  | some epoch => assignProperty record id epoch
  | none => record

/-- The `channelEpochs` object of a canonical constraint. -/
def buildChannelEpochs (sorted : List String) (epochs : JsMap String JsNumber) :
    JsMap String JsNumber :=
  sorted.foldl (assignChannelEpoch epochs) JsMap.empty

def buildConstraint (kind : DisclosureDestinationKind) (ids : IdSet)
    (epochs : JsMap String JsNumber) : DisclosureDestinationConstraint :=
  match disclosureKindIdField kind, ids with
  | none, _ => { kind }
  | _, .unrestricted => { kind }
  | some .contactId, .ids l => { kind, contactIds := some (sortIds localeCompare l) }
  | some .channelId, .ids l =>
    let sorted := sortIds localeCompare l
    if epochs.size > 0 then
      let channelEpochs := buildChannelEpochs sorted epochs
      if channelEpochs.size > 0 then
        { kind, channelIds := some sorted, channelEpochs := some channelEpochs }
      else { kind, channelIds := some sorted }
    else { kind, channelIds := some sorted }

/-- One round of the loop of `intersectDestinationConstraints`. -/
def intersectKind (left right : List DisclosureDestinationConstraint)
    (kind : DisclosureDestinationKind) : Option DisclosureDestinationConstraint :=
  match mergeSourceIds left kind, mergeSourceIds right kind with
  | some leftIds, some rightIds =>
    let merged := intersectIdSets leftIds rightIds
    if merged = .ids [] then none
    else
      let mergedEpochs :=
        intersectEpochs (mergeSourceEpochs left kind) (mergeSourceEpochs right kind) merged
      some (buildConstraint localeCompare kind merged mergedEpochs)
  | _, _ => none

def intersectDestinationConstraints (left right : List DisclosureDestinationConstraint) :
    List DisclosureDestinationConstraint :=
  disclosureDestinationKinds.filterMap (intersectKind localeCompare left right)

/-- One round of the loop of `normalizeConstraints`. -/
def normalizeKind (constraints : List DisclosureDestinationConstraint)
    (kind : DisclosureDestinationKind) : Option DisclosureDestinationConstraint :=
  (mergeSourceIds constraints kind).map fun ids =>
    buildConstraint localeCompare kind ids (mergeSourceEpochs constraints kind)

def normalizeConstraints (constraints : List DisclosureDestinationConstraint) :
    List DisclosureDestinationConstraint :=
  disclosureDestinationKinds.filterMap (normalizeKind localeCompare constraints)

def uniqueSorted (values : List String) : List String :=
  sortIds localeCompare values.eraseDups

end Collation

/-! ## The two destination gates -/

/-- The id a destination is scoped to; `publication` and `companion_self` have none. -/
def DisclosureDestination.targetId : DisclosureDestination → Option String
  | .contactDm contactId => some contactId
  | .inviteOnlyRoom channelId _ => some channelId
  | .publicRoom channelId _ => some channelId
  | _ => none

def destinationPermitted (constraints : List DisclosureDestinationConstraint)
    (destination : DisclosureDestination) : Bool :=
  if destination.kind = .companionSelf then true
  else match mergeSourceIds constraints destination.kind with
    | none => false
    | some .unrestricted => true
    | some (.ids ids) =>
      match destination.targetId with
      | none => false
      | some targetId => decide (targetId ∈ ids)

/-- A room destination's channel id and tracked epoch. -/
def DisclosureDestination.trackedRoom : DisclosureDestination → Option (String × JsNumber)
  | .inviteOnlyRoom channelId (some e) => some (channelId, e)
  | .publicRoom channelId (some e) => some (channelId, e)
  | _ => none

def destinationEpochEligible (constraints : List DisclosureDestinationConstraint)
    (destination : DisclosureDestination) : Bool :=
  match destination.trackedRoom with
  | none => true
  | some (channelId, currentEpoch) =>
    match (mergeSourceEpochs constraints destination.kind).get channelId with
    | none => false
    | some admittedEpoch => admittedEpoch.strictEq currentEpoch

/-! ## Rule 3 and composition -/

def deriveClassification (effectiveSensitivity : SensitivityLevel) (sourceCount : Nat)
    (hasUnclassifiedSource : Bool) : DisclosureClassification :=
  if sourceCount = 0 || hasUnclassifiedSource then .nonShareable
  else match effectiveSensitivity with
    | .«public» => .autoShareable
    | .personal => .restricted
    | _ => .approvalRequired

def beginDisclosureAccumulation (context : GenerationDisclosureContext) : DisclosureLineage where
  provenanceRefs := []
  sourceSnapshots := []
  effectiveSensitivity := mostRestrictiveSensitivity
  permittedDestinations := []
  subjectContactIds := []
  sourceChannelIds := []
  generationContextRef := context.generationContextRef
  classification := .nonShareable
  classifiedAt := context.classifiedAt
  classifierVersion := context.classifierVersion
  sourceCount := 0
  hasUnclassifiedSource := false

section Collation

variable (localeCompare : String → String → Int)

def accumulateDisclosureSource (lineage : DisclosureLineage)
    (contribution : DisclosureSourceContribution) : DisclosureLineage :=
  let isFirstSource := lineage.sourceCount = 0
  let nextPermitted :=
    if isFirstSource then normalizeConstraints localeCompare contribution.permittedDestinations
    else intersectDestinationConstraints localeCompare lineage.permittedDestinations
      contribution.permittedDestinations
  let effectiveSensitivity := maxSensitivity [lineage.effectiveSensitivity, contribution.sensitivity]
  let nextSensitivity := if isFirstSource then contribution.sensitivity else effectiveSensitivity
  let subjectContactIds := uniqueSorted localeCompare
    (lineage.subjectContactIds ++ contribution.subjectContactIds.getD [])
  -- a source channel id that is the empty string counts as absent
  let sourceChannelIds := uniqueSorted localeCompare
    (lineage.sourceChannelIds ++ (contribution.sourceChannelId.filter (· ≠ "")).toList)
  let provenanceRefs := uniqueSorted localeCompare
    (lineage.provenanceRefs ++ contribution.provenanceRefs.getD [] ++ [contribution.ref])
  let snapshot : DisclosureSourceSnapshot :=
    { ref := contribution.ref
      sensitivity := contribution.sensitivity
      permittedDestinations :=
        normalizeConstraints localeCompare contribution.permittedDestinations
      subjectContactIds := uniqueSorted localeCompare (contribution.subjectContactIds.getD [])
      sourceChannelId := contribution.sourceChannelId
      classified := contribution.classified }
  let sourceCount := lineage.sourceCount + 1
  let hasUnclassifiedSource := lineage.hasUnclassifiedSource || !contribution.classified
  { lineage with
    provenanceRefs
    sourceSnapshots := lineage.sourceSnapshots ++ [snapshot]
    effectiveSensitivity := nextSensitivity
    permittedDestinations := nextPermitted
    subjectContactIds
    sourceChannelIds
    classification := deriveClassification nextSensitivity sourceCount hasUnclassifiedSource
    sourceCount
    hasUnclassifiedSource }

/-- Fold the contributions, in order, from the empty lineage. -/
def foldDisclosureSources (context : GenerationDisclosureContext)
    (contributions : List DisclosureSourceContribution) : DisclosureLineage :=
  contributions.foldl (accumulateDisclosureSource localeCompare)
    (beginDisclosureAccumulation context)

end Collation

def SensitivityLevel.text : SensitivityLevel → String
  | .«public» => "public"
  | .personal => "personal"
  | .intimate => "intimate"
  | .confidential => "confidential"

def DisclosureDestinationKind.text : DisclosureDestinationKind → String
  | .companionSelf => "companion_self"
  | .contactDm => "contact_dm"
  | .inviteOnlyRoom => "invite_only_room"
  | .publicRoom => "public_room"
  | .publication => "publication"

def assessDisclosure (lineage : Option DisclosureLineage) (destination : DisclosureDestination) :
    DisclosureDecision :=
  let effectiveSensitivity :=
    (lineage.map DisclosureLineage.effectiveSensitivity).getD mostRestrictiveSensitivity
  let decide (allowed : Bool) (outcome : DisclosureClassification) (reason : String) :
      DisclosureDecision :=
    { allowed, outcome, destination, effectiveSensitivity, reason }
  if destination.kind = .companionSelf then
    decide true .autoShareable "companion-self is the private sink and always eligible"
  else match lineage with
    | none => decide false .nonShareable "fail closed: no usable disclosure lineage (§9.5)"
    | some lineage =>
      if lineage.sourceCount = 0 then
        decide false .nonShareable "fail closed: no usable disclosure lineage (§9.5)"
      else if lineage.hasUnclassifiedSource then
        decide false .nonShareable "fail closed: an admitted source lacked usable lineage (§9.5)"
      else if !destinationPermitted lineage.permittedDestinations destination then
        decide false .nonShareable
          "destination not in the intersected permitted-destination set (§6.3)"
      else if !destinationEpochEligible lineage.permittedDestinations destination then
        decide false .approvalRequired
          ("content admitted under a prior classification epoch is not auto-eligible after the "
            ++ "room's classification changed; route to human-in-the-loop egress review (§9.3)")
      else
        let ceiling := destinationAutoShareableCeiling destination.kind
        if sensitivityOrd effectiveSensitivity > sensitivityOrd ceiling then
          decide false .approvalRequired
            (s!"effective sensitivity {effectiveSensitivity.text} exceeds "
              ++ s!"{destination.kind.text} auto-shareable ceiling {ceiling.text}")
        else
          decide true .autoShareable "destination permitted and sensitivity within ceiling"

/-! ## The population seam's guard (`generation-lineage.ts`) -/

def IdField.text : IdField → String
  | .channelId => "channelId"
  | .contactId => "contactId"

/-- `assertScopedDisclosureConstraints`: throws at the first id-bearing constraint
whose id list is absent or empty. -/
def assertScopedDisclosureConstraints (context : String) :
    List DisclosureDestinationConstraint → Except String Unit
  | [] => .ok ()
  | c :: rest =>
    match disclosureKindIdField c.kind with
    | none => assertScopedDisclosureConstraints context rest
    | some field =>
      let ids := match field with
        | .channelId => c.channelIds
        | .contactId => c.contactIds
      match ids with
      | some (_ :: _) => assertScopedDisclosureConstraints context rest
      | _ => .error
          (s!"Disclosure population seam produced an unscoped {c.kind.text} constraint ({context}); "
            ++ s!"id-bearing destinations must carry a non-empty {field.text} set "
            ++ "(jp36 disclosure invariant).")

end Psfn.Disclosure
