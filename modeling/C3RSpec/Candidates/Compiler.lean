import C3RSpec.Base.Decimal
import C3RSpec.Base.Dict
import C3RSpec.Candidates.Widening

/-!
# Hierarchical candidate compilation

`c3r/candidate_compiler.py:19–23,53–216`. Definitions are masked, pruned, grouped by family and
subgroup, and the selected operations expanded over argument variants, placements and
verifiers. The ranked skeleton of an operation carries risk, family and utility; everything else
is taken from the definition that the subgroup's dictionary holds under the skeleton's id.
-/

namespace C3RSpec.Candidates

open Base

/-- `CandidateCompiler`; its constructor refuses a cap below one. -/
structure CandidateCompiler where
  perFamilyCap : Nat
  positive : 1 ≤ perFamilyCap

/-- The keyword arguments of `compile_hierarchical` that admit definitions. -/
structure Admission where
  remainingBudget : PyFloat
  allowedVerifiers : List Text
  allowedPlacements : Option (List Text) := none
  minimumOptimisticUtility : PyFloat := .fin 0

/-- The keyword arguments that bound the expansion; `0.05` is the nearest binary fraction. -/
structure Widths where
  initialWidth : Int := 1
  maximumWidth : Option Int := none
  wideningMargin : PyFloat := .fin (3602879701896397 / 72057594037927936)

/-- `definition.argument_variants or ((),)`. -/
def variants (d : ActionDefinition) : List (List (Text × Text)) :=
  if d.argumentVariants = [] then [[]] else d.argumentVariants

/-- `definition.placements or ("default",)`. -/
def placements (d : ActionDefinition) : List Text :=
  if d.placements = [] then ["default"] else d.placements

/-- The verifiers of a definition that are allowed. -/
def verifiers (adm : Admission) (d : ActionDefinition) : List Text :=
  d.verifierIds.filter fun v ↦ decide (v ∈ adm.allowedVerifiers)

/-- The checks of one argument variant. -/
def variantIsValid (d : ActionDefinition) (variant : List (Text × Text)) : Bool :=
  let keys := variant.map Prod.fst
  decide keys.Nodup && d.requiredArgumentKeys.all (fun k ↦ decide (k ∈ keys)) &&
    (d.allowedArgumentKeys == [] || keys.all fun k ↦ decide (k ∈ d.allowedArgumentKeys)) &&
    variant.all fun e ↦ e.1 != [] && e.2 != []

/-- `placement_is_valid`. -/
def placementIsValid (adm : Admission) (d : ActionDefinition) : Bool :=
  match adm.allowedPlacements with
  | none => true
  | some allowed => (placements d).all fun p ↦ decide (p ∈ allowed)

/-- The skeleton that the policy sees. -/
def policySkeleton (d : ActionDefinition) : ActionCandidate :=
  ⟨d.id, d.family, d.riskClass, d.optimisticUtility, none, []⟩

/-- The definition is not masked. -/
def passesMasks (policy : AuthorityPolicy) (adm : Admission) (d : ActionDefinition) : Bool :=
  policy.permits (policySkeleton d) && decide (d.dataBoundary ∈ policy.allowedDataBoundaries) &&
    d.provenanceComplete && (variants d).all (variantIsValid d) && placementIsValid adm d &&
    adm.allowedVerifiers.any fun v ↦ decide (v ∈ d.verifierIds)

/-- The definition is not pruned. -/
def withinBounds (adm : Admission) (d : ActionDefinition) : Bool :=
  !(PyFloat.lt adm.remainingBudget d.estimatedCost ||
    PyFloat.lt d.optimisticUtility adm.minimumOptimisticUtility)

/-- The definitions that reach expansion. -/
def survivors (policy : AuthorityPolicy) (adm : Admission) (definitions : List ActionDefinition) :
    List ActionDefinition :=
  definitions.filter fun d ↦ passesMasks policy adm d && withinBounds adm d

/-- `item.optimistic_utility - item.estimated_cost`. -/
def netUtility (d : ActionDefinition) : PyFloat := PyFloat.sub d.optimisticUtility d.estimatedCost

/-- The ranked skeleton of an operation. -/
def operationSkeleton (d : ActionDefinition) : ActionCandidate :=
  ⟨d.id, d.family, d.riskClass, netUtility d, none, []⟩

/-- The ranked skeleton of a subgroup; groups are never empty. -/
def subgroupSkeleton (family : ActionFamily) (subgroup : Text) (items : List ActionDefinition) :
    ActionCandidate :=
  match items with
  | [] => ⟨subgroup, family, .readOnly, .negInf, none, []⟩
  | d :: ds =>
    ⟨subgroup, family,
      (firstMin (fun a b ↦ decide (a.riskClass.value < b.riskClass.value)) d ds).riskClass,
      firstMax PyFloat.lt (netUtility d) (ds.map netUtility), none, []⟩

/-- The payload of an expansion. -/
def expansionPayload (d : ActionDefinition) (placement : Text) (arguments : List (Text × Text)) :
    List (Text × Text) :=
  ("subgroup", d.subgroup) :: ("operation", d.operation) :: ("placement", placement) :: arguments

/-- `replace(selected_skeleton, id=…, requested_verifier=…, payload=…)`. -/
def expansion (skeleton : ActionCandidate) (d : ActionDefinition) (index : Nat)
    (arguments : List (Text × Text)) (placement verifier : Text) : ActionCandidate :=
  { skeleton with
    id := d.id ++ 58 :: (decimal index ++ 58 :: (placement ++ 58 :: verifier))
    requestedVerifier := some verifier
    payload := expansionPayload d placement arguments }

section Compile

variable (cap : Nat) (adm : Admission)

/-- The three innermost loops, for one selected operation. -/
def expandOperation (acc : List ActionCandidate) (skeleton : ActionCandidate)
    (d : ActionDefinition) : List ActionCandidate :=
  forBreak cap (fun acc v ↦
    forBreak cap (fun acc placement ↦
      forBreak cap (fun acc verifier ↦ acc ++ [expansion skeleton d v.2 v.1 placement verifier])
        (verifiers adm d) acc)
      (placements d) acc)
    (variants d).zipIdx acc

/-- The loop over selected operations; `definitions_by_id[…]` raises on a missing id. -/
def operationLoop (byId : Dict Text ActionDefinition) :
    List ActionCandidate → List ActionCandidate → Except PyError (List ActionCandidate)
  | [], acc => .ok acc
  | skeleton :: rest, acc =>
    match byId.get? skeleton.id with
    | none => .error ⟨.keyError, "definitions_by_id"⟩
    | some d =>
      if cap ≤ (expandOperation cap adm acc skeleton d).length then
        .ok (expandOperation cap adm acc skeleton d)
      else operationLoop byId rest (expandOperation cap adm acc skeleton d)

variable (w : Widths)

/-- `maximum_width or self._per_family_cap`, then the smaller of it and the cap. -/
def boundedWidth : Int :=
  match w.maximumWidth with
  | none => cap
  | some m => if m = 0 then cap else min m cap

/-- The loop over selected subgroups. -/
def subgroupLoop (family : ActionFamily) (bySubgroup : Dict Text (List ActionDefinition)) :
    List ActionCandidate → List ActionCandidate × List ActionFamily →
      Except PyError (List ActionCandidate × List ActionFamily)
  | [], st => .ok st
  | subgroup :: rest, (acc, widened) => do
    let items := (bySubgroup.get? subgroup.id).getD []
    let skeletons := items.map operationSkeleton
    let selected ← widenWhenMarginIsSmall skeletons w.initialWidth (boundedWidth cap w)
      w.wideningMargin
    let widened :=
      if min w.initialWidth skeletons.length < selected.length ∧ family ∉ widened then
        widened ++ [family] else widened
    let acc ← operationLoop cap adm (Dict.ofList (items.map fun d ↦ (d.id, d))) selected acc
    if cap ≤ acc.length then .ok (acc, widened) else subgroupLoop family bySubgroup rest (acc, widened)

/-- The candidates of one family. -/
def compileFamily (family : ActionFamily) (items : List ActionDefinition)
    (widened : List ActionFamily) : Except PyError (List ActionCandidate × List ActionFamily) := do
  let bySubgroup := Dict.groupBy ActionDefinition.subgroup items
  let skeletons := bySubgroup.entries.map fun e ↦ subgroupSkeleton family e.1 e.2
  let selected ← widenWhenMarginIsSmall skeletons w.initialWidth (boundedWidth cap w)
    w.wideningMargin
  let widened :=
    if min w.initialWidth skeletons.length < selected.length then widened ++ [family] else widened
  subgroupLoop cap adm w family bySubgroup selected ([], widened)

/-- The loop over families. -/
def familyLoop (feasible : Dict ActionFamily (List ActionDefinition)) :
    List ActionFamily → List ActionCandidate × List ActionFamily →
      Except PyError (List ActionCandidate × List ActionFamily)
  | [], st => .ok st
  | family :: rest, (compiled, widened) => do
    let r ← compileFamily cap adm w family ((feasible.get? family).getD []) widened
    familyLoop feasible rest (compiled ++ r.1, r.2)

end Compile

/-- `sorted(feasible, key=lambda item: item.value)`. -/
def sortedFamilies (families : List ActionFamily) : List ActionFamily :=
  families.insertionSort fun a b ↦ a.value ≤ b.value

/-- What the first loop has collected. -/
structure Screened where
  feasible : Dict ActionFamily (List ActionDefinition) := ∅
  masked : List Text := []
  pruned : List Text := []

section Screen

variable (policy : AuthorityPolicy) (adm : Admission)

/-- One round of the first loop. -/
def screenOne (st : Screened) (d : ActionDefinition) : Screened :=
  if !passesMasks policy adm d then { st with masked := st.masked ++ [d.id] }
  else if !withinBounds adm d then { st with pruned := st.pruned ++ [d.id] }
  else { st with feasible := st.feasible.insert d.family ((st.feasible.get? d.family).getD [] ++ [d]) }

/-- The first loop. -/
def screen (definitions : List ActionDefinition) : Screened :=
  definitions.foldl (screenOne policy adm) {}

/-- The definitions that are masked. -/
def maskedOut (definitions : List ActionDefinition) : List ActionDefinition :=
  definitions.filter fun d ↦ !passesMasks policy adm d

/-- The definitions that are pruned. -/
def prunedOut (definitions : List ActionDefinition) : List ActionDefinition :=
  definitions.filter fun d ↦ passesMasks policy adm d && !withinBounds adm d

variable {policy adm}

private theorem foldl_screenOne (definitions : List ActionDefinition) (st : Screened) :
    definitions.foldl (screenOne policy adm) st =
      { feasible := (survivors policy adm definitions).foldl (fun d x ↦
          d.insert x.family ((d.get? x.family).getD [] ++ [x])) st.feasible
        masked := st.masked ++ (maskedOut policy adm definitions).map ActionDefinition.id
        pruned := st.pruned ++ (prunedOut policy adm definitions).map ActionDefinition.id } := by
  induction definitions generalizing st with
  | nil => simp [survivors, maskedOut, prunedOut]
  | cons d ds ih =>
    rw [List.foldl_cons, ih, screenOne]
    cases hmask : passesMasks policy adm d with
    | false => simp [survivors, maskedOut, prunedOut, hmask]
    | true =>
      cases hbound : withinBounds adm d with
      | false => simp [survivors, maskedOut, prunedOut, hmask, hbound]
      | true => simp [survivors, maskedOut, prunedOut, hmask, hbound]

/-- The first loop sorts every definition into one of three lists, each in the order of the
input. -/
theorem screen_eq (definitions : List ActionDefinition) :
    screen policy adm definitions =
      { feasible := Dict.groupBy ActionDefinition.family (survivors policy adm definitions)
        masked := (maskedOut policy adm definitions).map ActionDefinition.id
        pruned := (prunedOut policy adm definitions).map ActionDefinition.id } := by
  rw [screen, foldl_screenOne, List.nil_append, List.nil_append]
  rfl

end Screen

/-- `CandidateCompiler.compile_hierarchical`. -/
def CandidateCompiler.compileHierarchical (compiler : CandidateCompiler)
    (definitions : List ActionDefinition) (policy : AuthorityPolicy) (adm : Admission)
    (w : Widths := {}) : Except PyError CandidateCompilation :=
  if PyFloat.lt adm.remainingBudget (.fin 0) then
    .error (valueError "remaining_budget cannot be negative")
  else if w.initialWidth < 1 then .error (valueError "initial_width must be positive")
  else do
    let screened := screen policy adm definitions
    let r ← familyLoop compiler.perFamilyCap adm w screened.feasible
      (sortedFamilies screened.feasible.keys) ([], [])
    return { candidates := r.1
             maskedIds := screened.masked
             noSafeAction := decide (r.1 = [])
             prunedIds := screened.pruned
             widenedFamilies := r.2 }

/-- The loop over the families of the survivors. -/
def compileFamilies (cap : Nat) (adm : Admission) (w : Widths) (kept : List ActionDefinition) :
    Except PyError (List ActionCandidate × List ActionFamily) :=
  familyLoop cap adm w (Dict.groupBy ActionDefinition.family kept)
    (sortedFamilies (Dict.groupBy ActionDefinition.family kept).keys) ([], [])

/-- The compiler checks its numbers and compiles the families of the survivors. -/
theorem compileHierarchical_eq (compiler : CandidateCompiler)
    (definitions : List ActionDefinition) (policy : AuthorityPolicy) (adm : Admission)
    (w : Widths) :
    compiler.compileHierarchical definitions policy adm w =
      if PyFloat.lt adm.remainingBudget (.fin 0) then
        .error (valueError "remaining_budget cannot be negative")
      else if w.initialWidth < 1 then .error (valueError "initial_width must be positive")
      else (compileFamilies compiler.perFamilyCap adm w (survivors policy adm definitions)).map
        fun r ↦
          { candidates := r.1
            maskedIds := (maskedOut policy adm definitions).map ActionDefinition.id
            noSafeAction := decide (r.1 = [])
            prunedIds := (prunedOut policy adm definitions).map ActionDefinition.id
            widenedFamilies := r.2 } := by
  rw [CandidateCompiler.compileHierarchical, screen_eq, compileFamilies]
  rfl

/-- What a compilation holds when it is returned. -/
theorem compileHierarchical_eq_ok {compiler : CandidateCompiler}
    {definitions : List ActionDefinition} {policy : AuthorityPolicy} {adm : Admission}
    {w : Widths} {compilation : CandidateCompilation} :
    compiler.compileHierarchical definitions policy adm w = .ok compilation ↔
      PyFloat.lt adm.remainingBudget (.fin 0) = false ∧ 1 ≤ w.initialWidth ∧
      ∃ r, compileFamilies compiler.perFamilyCap adm w (survivors policy adm definitions) =
          .ok r ∧
        compilation =
          { candidates := r.1
            maskedIds := (maskedOut policy adm definitions).map ActionDefinition.id
            noSafeAction := decide (r.1 = [])
            prunedIds := (prunedOut policy adm definitions).map ActionDefinition.id
            widenedFamilies := r.2 } := by
  rw [compileHierarchical_eq]
  cases PyFloat.lt adm.remainingBudget (.fin 0) with
  | true => simp
  | false =>
    by_cases hwidth : w.initialWidth < 1
    · simp [hwidth]
    · cases compileFamilies compiler.perFamilyCap adm w (survivors policy adm definitions) with
      | error e => simp [hwidth, Except.map]
      | ok r => simp [hwidth, Except.map, not_lt.mp hwidth, eq_comm]

end C3RSpec.Candidates
