import Fctf.RewardQuery
import Fctf.Lib.Grouping
import Mathlib.Algebra.BigOperators.Group.List.Basic
import Mathlib.Tactic.Ring
import Mathlib.Tactic.Linarith

/-!
# Rewards by Several Criteria

`MultiCriteriaExecutor` asks one reward query for each rule and combines what they yield: the
entities of all rules, those of any rule, or all of them with a weighted score.

A row says which entity it is about by its id alone. Here it also says what kind of entity that
is, which is the `entity` of the query it comes from; no function reads it. Floats are exact.

## Main results

* `execute_ok`: an execution combines the results it has added to those of earlier ones.
* `setOperation_iff`: when the combinations are set operations.
-/

namespace Fctf.MultiCriteria

open Grouping Rewards

/-! ### Numbers -/

/-- The number types of Python that a metric or a weight has. -/
inductive NumberType where
  | int
  | decimal
  | float
  deriving DecidableEq, Repr

/-- The type of `a + b` and of `a * b`; a `Decimal` and a `float` raise a `TypeError`. -/
def NumberType.coerce : NumberType → NumberType → Option NumberType
  | .decimal, .float | .float, .decimal => none
  | .int, type => some type
  | type, _ => some type

structure Number where
  type : NumberType
  value : ℚ
  deriving DecidableEq, Repr

/-- The `0` that sums start with. -/
def Number.zero : Number := ⟨.int, 0⟩

def Number.add (a b : Number) : Option Number :=
  (a.type.coerce b.type).map fun type => ⟨type, a.value + b.value⟩

def Number.mul (a b : Number) : Option Number :=
  (a.type.coerce b.type).map fun type => ⟨type, a.value * b.value⟩

/-! ### Rules and results -/

/-- `CriteriaRule`. -/
structure CriteriaRule where
  templateId : String
  params : List (String × Value)
  weight : Number

/-- `MultiCriteriaQuery`. -/
structure MultiCriteriaQuery where
  rules : List CriteriaRule
  logic : String
  combineMethod : String
  description : String

/-- What a row is about. -/
structure EntityRef where
  kind : Entity
  id : ℤ
  deriving DecidableEq, Repr

/-- A row of a result; `info` is what the combinations only hand on. -/
structure Row (α : Type) where
  entity : EntityRef
  metricValue : Option Number
  combinedScore : Option Number
  info : α

/-- An entry of `rule_results`. -/
structure RuleResult (α : Type) where
  rule : CriteriaRule
  result : List (Row α)

/-- An entry of `rule_details`. -/
structure RuleDetail where
  template : String
  weight : Option Number
  matched : ℕ

/-- What `execute` returns; nothing but the first two fields without rules. -/
structure Combined (α : Type) where
  result : List (Row α)
  description : String
  logic : Option String
  totalMatched : Option ℕ
  ruleDetails : Option (List RuleDetail)

/-- `MultiCriteriaExecutor`. -/
structure Executor (α : Type) where
  query : MultiCriteriaQuery
  ruleResults : List (RuleResult α)

/-- `build_query_from_template`, and `validate_query_spec` with `execute_query`. -/
structure QueryEngine (γ α : Type) where
  buildQueryFromTemplate : String → List (String × Value) → Option γ
  runQuery : γ → Except String (List (Row α))

variable {γ α : Type}

/-- `__init__`. -/
def Executor.init (query : MultiCriteriaQuery) : Executor α := ⟨query, []⟩

/-- `row.get("metric_value", 0) or 0`. -/
def Row.metric (row : Row α) : Number :=
  match row.metricValue with
  | none => .zero
  | some metric => if metric.value = 0 then .zero else metric

/-- `row["entity_id"]`. -/
def Row.entityId (row : Row α) : ℤ := row.entity.id

/-! ### The combinations -/

def noRules : Combined α := ⟨[], "No rules executed", none, none, none⟩

def Executor.ruleDetails (ex : Executor α) : List RuleDetail :=
  ex.ruleResults.map fun rr => ⟨rr.rule.templateId, none, rr.result.length⟩

/-- `_combine_intersection`. -/
def Executor.combineIntersection (ex : Executor α) : Combined α :=
  match ex.ruleResults with
  | [] => noRules
  | first :: _ =>
    let entitySets := ex.ruleResults.map fun rr => rr.result.map Row.entityId
    let combined := first.result.filter fun r => entitySets.all fun ids => r.entityId ∈ ids
    { result := combined
      description :=
        "Entities matching ALL " ++ toString ex.query.rules.length ++ " criteria"
      logic := some "AND"
      totalMatched := some combined.length
      ruleDetails := some ex.ruleDetails }

/-- All rows, in the order of the nested loops. -/
def Executor.rows (ex : Executor α) : List (Row α) := ex.ruleResults.flatMap RuleResult.result

/-- `_combine_union`. -/
def Executor.combineUnion (ex : Executor α) : Combined α :=
  if ex.ruleResults.isEmpty then noRules
  else
    let combined := firsts Row.entityId ex.rows
    { result := combined
      description :=
        "Entities matching ANY of " ++ toString ex.query.rules.length ++ " criteria"
      logic := some "OR"
      totalMatched := some combined.length
      ruleDetails := some ex.ruleDetails }

/-- All rows with the weight of their rule, in the order of the nested loops. -/
def Executor.weightedRows (ex : Executor α) : List (Row α × Number) :=
  ex.ruleResults.flatMap fun rr => rr.result.map fun row => (row, rr.rule.weight)

/-- `entity_scores[entity_id] += metric_value * weight`. -/
def addWeighted (score : Number) (weighted : Row α × Number) : Option Number :=
  (weighted.1.metric.mul weighted.2).bind score.add

/-- The copy of a row with its combined score. -/
def Row.withScore (row : Row α) (score : Number) : Row α :=
  { row with combinedScore := some score, metricValue := some score }

/-- `x["combined_score"]`. -/
def Row.score (row : Row α) : ℚ := (row.combinedScore.getD .zero).value

/-- `_combine_weighted_score`; `none` is a `TypeError`. -/
def Executor.combineWeightedScore (ex : Executor α) : Option (Combined α) :=
  if ex.ruleResults.isEmpty then some noRules
  else do
    let entityScores ← tally (fun weighted => weighted.1.entityId) addWeighted .zero ex.weightedRows
    let entityData := firsts Row.entityId ex.rows
    let combined := entityData.map fun row => row.withScore (entityScores row.entityId)
    let sorted := combined.mergeSort fun x y => y.score ≤ x.score
    return {
      result := sorted
      description :=
        "Entities scored by weighted combination of " ++ toString ex.query.rules.length ++
          " criteria"
      logic := some "WEIGHTED"
      totalMatched := some sorted.length
      ruleDetails := some (ex.ruleResults.map fun rr =>
        ⟨rr.rule.templateId, some rr.rule.weight, rr.result.length⟩) }

/-! ### Executions -/

/-- The first loop of `execute`. -/
def Executor.runRules (engine : QueryEngine γ α) :
    Executor α → List CriteriaRule → Executor α × Except String Unit
  | ex, [] => (ex, .ok ())
  | ex, rule :: rules =>
    match engine.buildQueryFromTemplate rule.templateId rule.params with
    | none => (ex, .error ("Template " ++ rule.templateId ++ " not found"))
    | some queryConfig =>
      match engine.runQuery queryConfig with
      | .error e => (ex, .error e)
      | .ok result =>
        runRules engine { ex with ruleResults := ex.ruleResults ++ [⟨rule, result⟩] } rules

/-- What `execute` makes of its results. -/
def Executor.combine (ex : Executor α) : Except String (Combined α) :=
  if ex.query.combineMethod = "intersection" then .ok ex.combineIntersection
  else if ex.query.combineMethod = "union" then .ok ex.combineUnion
  else if ex.query.combineMethod = "weighted_score" then
    match ex.combineWeightedScore with
    | some combined => .ok combined
    | none => .error "unsupported operand type(s)"
  else .error ("Unknown combine method: " ++ ex.query.combineMethod)

/-- `execute`. -/
def Executor.execute (engine : QueryEngine γ α) (ex : Executor α) :
    Executor α × Except String (Combined α) :=
  match ex.runRules engine ex.query.rules with
  | (ex, .error e) => (ex, .error e)
  | (ex, .ok ()) => (ex, ex.combine)

/-! ### Sums of numbers -/

/-- No `Decimal` meets a `float` among these types. -/
def Unmixed (types : List NumberType) : Prop := .decimal ∉ types ∨ .float ∉ types

theorem unmixed_cons_cons_cons {a b c : NumberType} {types : List NumberType} :
    Unmixed (a :: b :: c :: types) ↔
      ∃ type, (b.coerce c).bind a.coerce = some type ∧ Unmixed (type :: types) := by
  cases a <;> cases b <;> cases c <;> simp [Unmixed, NumberType.coerce]

/-- The types of the numbers that rows with weights are summed up from. -/
def numberTypes (l : List (Row α × Number)) : List NumberType :=
  l.flatMap fun weighted => [weighted.1.metric.type, weighted.2.type]

/-- What rows with weights sum up to. -/
def weightedValue (l : List (Row α × Number)) : ℚ :=
  (l.map fun weighted => weighted.1.metric.value * weighted.2.value).sum

theorem addWeighted_eq_some {score score' : Number} {weighted : Row α × Number} :
    addWeighted score weighted = some score' ↔
      (weighted.1.metric.type.coerce weighted.2.type).bind score.type.coerce = some score'.type ∧
        score'.value = score.value + weighted.1.metric.value * weighted.2.value := by
  obtain ⟨type', value'⟩ := score'
  unfold addWeighted Number.mul Number.add
  cases weighted.1.metric.type.coerce weighted.2.type with
  | none => simp
  | some type => simp [eq_comm]

/-- A sum is that of the values. -/
theorem foldlM_addWeighted_value {l : List (Row α × Number)} {score sum : Number}
    (h : l.foldlM addWeighted score = some sum) : sum.value = score.value + weightedValue l := by
  induction l generalizing score with
  | nil =>
      obtain rfl := Option.some.inj h
      simp [weightedValue]
  | cons weighted l ih =>
      have hbind : (addWeighted score weighted).bind (l.foldlM addWeighted) = some sum := h
      obtain ⟨score', hstep, hrest⟩ := Option.bind_eq_some_iff.mp hbind
      rw [ih hrest, (addWeighted_eq_some.mp hstep).2]
      simp only [weightedValue, List.map_cons, List.sum_cons]
      ring

/-- A sum is one of numbers that go together. -/
theorem foldlM_addWeighted_isSome {l : List (Row α × Number)} {score : Number} :
    (∃ sum, l.foldlM addWeighted score = some sum) ↔ Unmixed (score.type :: numberTypes l) := by
  induction l generalizing score with
  | nil =>
      refine iff_of_true ⟨score, rfl⟩ ?_
      cases score.type <;> simp [Unmixed, numberTypes]
  | cons weighted l ih =>
      have htypes : numberTypes (weighted :: l) =
          weighted.1.metric.type :: weighted.2.type :: numberTypes l := rfl
      rw [htypes, unmixed_cons_cons_cons]
      have hbind : ∀ sum, (weighted :: l).foldlM addWeighted score = some sum ↔
          ∃ score', addWeighted score weighted = some score' ∧
            l.foldlM addWeighted score' = some sum := fun sum => Option.bind_eq_some_iff
      constructor
      · rintro ⟨sum, hsum⟩
        obtain ⟨score', hstep, hrest⟩ := (hbind sum).mp hsum
        exact ⟨score'.type, (addWeighted_eq_some.mp hstep).1, ih.mp ⟨sum, hrest⟩⟩
      · rintro ⟨type, hstep, hunmixed⟩
        let score' : Number :=
          ⟨type, score.value + weighted.1.metric.value * weighted.2.value⟩
        obtain ⟨sum, hrest⟩ := (@ih score').mpr hunmixed
        exact ⟨sum, (hbind sum).mpr ⟨score', addWeighted_eq_some.mpr ⟨hstep, rfl⟩, hrest⟩⟩

/-! ### What the combinations return -/

/-- The entities of a result. -/
def RuleResult.entities (rr : RuleResult α) : List EntityRef := rr.result.map Row.entity

/-- The entities that are returned. -/
def Combined.entities (combined : Combined α) : List EntityRef := combined.result.map Row.entity

/-- The rows of the first rule. -/
def Executor.firstResult (ex : Executor α) : List (Row α) :=
  ex.ruleResults.head?.elim [] RuleResult.result

/-- The rows of an id, with the weights of their rules. -/
def Executor.rowsOfId (ex : Executor α) (id : ℤ) : List (Row α × Number) :=
  ofKey (fun weighted => weighted.1.entityId) ex.weightedRows id

section Results

variable {ex : Executor α} {row : Row α} {e : EntityRef}

theorem mem_rows : row ∈ ex.rows ↔ ∃ rr ∈ ex.ruleResults, row ∈ rr.result := List.mem_flatMap

theorem mem_rows_of_mem_firstResult (h : row ∈ ex.firstResult) : row ∈ ex.rows := by
  unfold Executor.firstResult at h
  cases hresults : ex.ruleResults with
  | nil =>
      rw [hresults] at h
      cases h
  | cons first rest =>
      rw [hresults] at h
      exact mem_rows.mpr ⟨first, hresults ▸ List.mem_cons_self, h⟩

theorem combineIntersection_result (ex : Executor α) :
    ex.combineIntersection.result = ex.firstResult.filter fun r =>
      ex.ruleResults.all fun rr => r.entityId ∈ rr.result.map Row.entityId := by
  unfold Executor.combineIntersection Executor.firstResult
  cases ex.ruleResults with
  | nil => rfl
  | cons first rest => simp only [List.head?_cons, Option.elim_some, List.all_map]; rfl

theorem combineUnion_result (ex : Executor α) :
    ex.combineUnion.result = firsts Row.entityId ex.rows := by
  unfold Executor.combineUnion Executor.rows
  split
  · next h =>
      rw [List.isEmpty_iff.mp h]
      rfl
  · rfl

theorem combineWeightedScore_result (ex : Executor α) :
    ex.combineWeightedScore.map Combined.result =
      (tally (fun weighted => weighted.1.entityId) addWeighted .zero ex.weightedRows).map
        fun entityScores =>
          ((firsts Row.entityId ex.rows).map fun row =>
            row.withScore (entityScores row.entityId)).mergeSort fun x y => y.score ≤ x.score := by
  unfold Executor.combineWeightedScore
  split
  · next h =>
      rw [Executor.weightedRows, Executor.rows, List.isEmpty_iff.mp h]
      simp [tally, firsts, noRules]
  · cases tally (fun weighted => weighted.1.entityId) addWeighted .zero ex.weightedRows <;> rfl

end Results

/-! ### Ids of one kind -/

/-- No id occurs under two kinds. -/
def OneKind (results : List (RuleResult α)) : Prop :=
  ∀ rr ∈ results, ∀ x ∈ rr.result, ∀ rr' ∈ results, ∀ y ∈ rr'.result,
    x.entityId = y.entityId → x.entity = y.entity

/-- No entity has both a `Decimal` and a `float` among its metrics and their weights. -/
def NumbersFit (ex : Executor α) : Prop :=
  ∀ e, Unmixed (numberTypes (ofKey (fun weighted => weighted.1.entity) ex.weightedRows e))

/-- The part that a rule has in the score of an entity. -/
def RuleResult.share (rr : RuleResult α) (e : EntityRef) : ℚ :=
  rr.rule.weight.value * ((ofKey Row.entity rr.result e).head?.elim 0 fun row => row.metric.value)

/-- What an entity's repeated rows in a rule's result are worth. -/
def RuleResult.surplus (rr : RuleResult α) (e : EntityRef) : ℚ :=
  rr.rule.weight.value *
    ((ofKey Row.entity rr.result e).tail.map fun row => row.metric.value).sum

/-- The weighted sum over the rules that contain an entity. -/
def weightedSum (results : List (RuleResult α)) (e : EntityRef) : ℚ :=
  (results.map fun rr => rr.share e).sum

section OneKind

variable {ex : Executor α} {row : Row α} {e : EntityRef}

theorem mem_entities {rr : RuleResult α} :
    e ∈ rr.entities ↔ ∃ row ∈ rr.result, row.entity = e := List.mem_map

/-- A row's id is in a result as its entity is. -/
theorem entityId_mem_iff (h : OneKind ex.ruleResults) (hrow : row ∈ ex.rows)
    {rr : RuleResult α} (hrr : rr ∈ ex.ruleResults) :
    row.entityId ∈ rr.result.map Row.entityId ↔ row.entity ∈ rr.entities := by
  obtain ⟨own, hown, hrow⟩ := mem_rows.mp hrow
  constructor
  · intro hid
    obtain ⟨y, hy, heq⟩ := List.mem_map.mp hid
    exact mem_entities.mpr ⟨y, hy, h rr hrr y hy own hown row hrow heq⟩
  · intro he
    obtain ⟨y, hy, heq⟩ := mem_entities.mp he
    exact List.mem_map.mpr ⟨y, hy, congrArg EntityRef.id heq⟩

/-- The intersection, in terms of entities. -/
theorem combineIntersection_entities (h : OneKind ex.ruleResults) :
    ex.combineIntersection.result =
      ex.firstResult.filter fun r => ex.ruleResults.all fun rr => r.entity ∈ rr.entities := by
  rw [combineIntersection_result]
  refine List.filter_congr fun row hrow => ?_
  rw [Bool.eq_iff_iff, List.all_eq_true, List.all_eq_true]
  refine forall₂_congr fun rr hrr => ?_
  rw [decide_eq_true_eq, decide_eq_true_eq,
    entityId_mem_iff h (mem_rows_of_mem_firstResult hrow) hrr]

theorem mem_combineIntersection (h : OneKind ex.ruleResults) :
    e ∈ ex.combineIntersection.entities ↔
      ex.ruleResults ≠ [] ∧ ∀ rr ∈ ex.ruleResults, e ∈ rr.entities := by
  rw [Combined.entities, combineIntersection_entities h, List.mem_map]
  simp only [List.mem_filter, List.all_eq_true, decide_eq_true_eq]
  constructor
  · rintro ⟨row, ⟨hrow, hall⟩, rfl⟩
    obtain ⟨rr, hrr, -⟩ := mem_rows.mp (mem_rows_of_mem_firstResult hrow)
    exact ⟨List.ne_nil_of_mem hrr, hall⟩
  · rintro ⟨hne, hall⟩
    obtain ⟨first, rest, hresults⟩ := List.exists_cons_of_ne_nil hne
    obtain ⟨row, hrow, rfl⟩ := mem_entities.mp (hall first (hresults ▸ List.mem_cons_self))
    refine ⟨row, ⟨?_, hall⟩, rfl⟩
    rwa [Executor.firstResult, hresults]

/-- The first rows of all ids are about every entity, about each once. -/
theorem mem_firsts_entities (h : OneKind ex.ruleResults) :
    e ∈ (firsts Row.entityId ex.rows).map Row.entity ↔ ∃ rr ∈ ex.ruleResults, e ∈ rr.entities := by
  rw [List.mem_map]
  constructor
  · rintro ⟨row, hrow, rfl⟩
    obtain ⟨rr, hrr, hrow⟩ := mem_rows.mp (mem_of_mem_firsts hrow)
    exact ⟨rr, hrr, mem_entities.mpr ⟨row, hrow, rfl⟩⟩
  · rintro ⟨rr, hrr, he⟩
    obtain ⟨row, hrow, rfl⟩ := mem_entities.mp he
    obtain ⟨y, hy, hid⟩ : ∃ y ∈ firsts Row.entityId ex.rows, y.entityId = row.entityId :=
      exists_mem_firsts (mem_rows.mpr ⟨rr, hrr, hrow⟩)
    obtain ⟨rr', hrr', hy'⟩ := mem_rows.mp (mem_of_mem_firsts hy)
    exact ⟨y, hy, h rr' hrr' y hy' rr hrr row hrow hid⟩

theorem nodup_firsts_entities (ex : Executor α) :
    ((firsts Row.entityId ex.rows).map Row.entity).Nodup :=
  List.Nodup.of_map EntityRef.id (by
    rw [List.map_map]
    exact nodup_firsts Row.entityId ex.rows)

/-- If the first rows of all ids are about every entity, no id is one of two entities. -/
theorem oneKind_of_mem_firsts
    (h : ∀ rr ∈ ex.ruleResults, ∀ row ∈ rr.result,
      row.entity ∈ (firsts Row.entityId ex.rows).map Row.entity) : OneKind ex.ruleResults := by
  intro rr hrr x hx rr' hrr' y hy hid
  obtain ⟨x', hx', hxe⟩ := List.mem_map.mp (h rr hrr x hx)
  obtain ⟨y', hy', hye⟩ := List.mem_map.mp (h rr' hrr' y hy)
  have heq : x' = y' := by
    refine List.inj_on_of_nodup_map (nodup_firsts Row.entityId ex.rows) hx' hy' ?_
    rw [Row.entityId, Row.entityId, hxe, hye]
    exact hid
  rw [← hxe, ← hye, heq]

theorem share_add_surplus (rr : RuleResult α) (e : EntityRef) :
    rr.share e + rr.surplus e =
      rr.rule.weight.value *
        ((ofKey Row.entity rr.result e).map fun row => row.metric.value).sum := by
  unfold RuleResult.share RuleResult.surplus
  cases ofKey Row.entity rr.result e with
  | nil => simp
  | cons row rows => simp [mul_add]

end OneKind

/-! ### Weighted scores -/

section Weighted

variable {ex : Executor α} {row : Row α} {e : EntityRef}

theorem fst_mem_rows {weighted : Row α × Number} (h : weighted ∈ ex.weightedRows) :
    weighted.1 ∈ ex.rows := by
  obtain ⟨rr, hrr, hmem⟩ := List.mem_flatMap.mp h
  obtain ⟨row, hrow, rfl⟩ := List.mem_map.mp hmem
  exact mem_rows.mpr ⟨rr, hrr, hrow⟩

/-- The rows of an entity's id are the entity's. -/
theorem rowsOfId_entityId (h : OneKind ex.ruleResults) (hrow : row ∈ ex.rows) :
    ex.rowsOfId row.entityId =
      ofKey (fun weighted => weighted.1.entity) ex.weightedRows row.entity := by
  obtain ⟨rr, hrr, hrow⟩ := mem_rows.mp hrow
  refine List.filter_congr fun weighted hmem => decide_eq_decide.mpr ⟨fun hid => ?_, fun he => ?_⟩
  · obtain ⟨rr', hrr', hmem⟩ := mem_rows.mp (fst_mem_rows hmem)
    exact h rr' hrr' _ hmem rr hrr row hrow hid
  · exact congrArg EntityRef.id he

/-- What an entity's rows sum up to. -/
theorem weightedValue_ofKey (ex : Executor α) (e : EntityRef) :
    weightedValue (ofKey (fun weighted => weighted.1.entity) ex.weightedRows e) =
      weightedSum ex.ruleResults e + (ex.ruleResults.map fun rr => rr.surplus e).sum := by
  unfold Executor.weightedRows
  induction ex.ruleResults with
  | nil => simp [weightedValue, weightedSum, ofKey]
  | cons rr rest ih =>
      have hfirst : weightedValue (ofKey (fun weighted => weighted.1.entity)
          (rr.result.map fun row => (row, rr.rule.weight)) e) = rr.share e + rr.surplus e := by
        rw [share_add_surplus, ← List.sum_map_mul_left, weightedValue, ofKey, List.filter_map,
          List.map_map]
        refine congrArg List.sum (List.map_congr_left fun row _ => ?_)
        exact mul_comm _ _
      have happend : weightedValue (ofKey (fun weighted => weighted.1.entity)
          ((rr :: rest).flatMap fun rr => rr.result.map fun row => (row, rr.rule.weight)) e) =
          weightedValue (ofKey (fun weighted => weighted.1.entity)
            (rr.result.map fun row => (row, rr.rule.weight)) e) +
          weightedValue (ofKey (fun weighted => weighted.1.entity)
            (rest.flatMap fun rr => rr.result.map fun row => (row, rr.rule.weight)) e) := by
        rw [List.flatMap_cons, weightedValue, ofKey, List.filter_append, List.map_append,
          List.sum_append]
        rfl
      rw [happend, hfirst, ih]
      simp only [weightedSum, List.map_cons, List.sum_cons]
      ring

/-- An id without rows keeps the sum that it starts with. -/
theorem rowsOfId_eq_nil {id : ℤ} (h : ∀ row ∈ ex.rows, row.entityId ≠ id) :
    ex.rowsOfId id = [] :=
  List.filter_eq_nil_iff.mpr fun _ hmem hid => h _ (fst_mem_rows hmem) (of_decide_eq_true hid)

/-- **When there is a weighted score**: no `Decimal` is added to or multiplied by a `float`. -/
theorem combineWeightedScore_isSome (h : OneKind ex.ruleResults) :
    ex.combineWeightedScore.isSome ↔ NumbersFit ex := by
  rw [← Option.isSome_map (f := Combined.result), combineWeightedScore_result, Option.isSome_map]
  have hstart : ∀ types, Unmixed (Number.zero.type :: types) ↔ Unmixed types := by
    simp [Unmixed, Number.zero]
  rw [Option.isSome_iff_exists]
  constructor
  · rintro ⟨entityScores, hscores⟩ e
    by_cases he : ∃ row ∈ ex.rows, row.entity = e
    · obtain ⟨row, hrow, rfl⟩ := he
      have hsum := tally_eq_some.mp hscores row.entityId
      rw [← rowsOfId_entityId h hrow]
      exact (hstart _).mp (foldlM_addWeighted_isSome.mp ⟨_, hsum⟩)
    · have hnone : ofKey (fun weighted => weighted.1.entity) ex.weightedRows e = [] :=
        List.filter_eq_nil_iff.mpr fun weighted hmem heq =>
          he ⟨weighted.1, fst_mem_rows hmem, of_decide_eq_true heq⟩
      rw [hnone]
      exact Or.inl (List.not_mem_nil)
  · intro hfit
    have hsums : ∀ id, ∃ sum, (ex.rowsOfId id).foldlM addWeighted .zero = some sum := by
      intro id
      by_cases hid : ∃ row ∈ ex.rows, row.entityId = id
      · obtain ⟨row, hrow, rfl⟩ := hid
        rw [foldlM_addWeighted_isSome, hstart, rowsOfId_entityId h hrow]
        exact hfit row.entity
      · rw [rowsOfId_eq_nil fun row hrow heq => hid ⟨row, hrow, heq⟩]
        exact ⟨.zero, rfl⟩
    choose entityScores hscores using hsums
    exact ⟨entityScores, tally_eq_some.mpr hscores⟩

/-- **What the weighted rows are**: the first rows, each with the sum of its entity's rows. -/
theorem combineWeightedScore_spec (h : OneKind ex.ruleResults) {combined : Combined α}
    (hcombined : ex.combineWeightedScore = some combined) :
    combined.entities.Perm ((firsts Row.entityId ex.rows).map Row.entity) ∧
      (∀ row ∈ combined.result, row.metricValue = row.combinedScore ∧
        row.score = weightedSum ex.ruleResults row.entity +
          (ex.ruleResults.map fun rr => rr.surplus row.entity).sum) ∧
      combined.result.Pairwise fun x y => y.score ≤ x.score := by
  have hresult := combineWeightedScore_result ex
  rw [hcombined, Option.map_some, eq_comm, Option.map_eq_some_iff] at hresult
  obtain ⟨entityScores, hscores, hresult⟩ := hresult
  have hperm := List.mergeSort_perm ((firsts Row.entityId ex.rows).map fun row =>
    row.withScore (entityScores row.entityId)) fun x y => y.score ≤ x.score
  rw [hresult] at hperm
  refine ⟨?_, fun row hrow => ?_, ?_⟩
  · have hmap := hperm.map Row.entity
    rwa [List.map_map] at hmap
  · obtain ⟨first, hfirst, rfl⟩ := List.mem_map.mp (hperm.mem_iff.mp hrow)
    have hsum := foldlM_addWeighted_value (tally_eq_some.mp hscores first.entityId)
    have hrows := rowsOfId_entityId h (mem_of_mem_firsts hfirst)
    unfold Executor.rowsOfId at hrows
    rw [hrows, weightedValue_ofKey] at hsum
    exact ⟨rfl, hsum.trans (zero_add _)⟩
  · rw [← hresult]
    refine (List.pairwise_mergeSort ?_ ?_ _).imp of_decide_eq_true
    · intro x y z hxy hyz
      exact decide_eq_true ((of_decide_eq_true hyz).trans (of_decide_eq_true hxy))
    · intro x y
      rw [Bool.or_eq_true, decide_eq_true_eq, decide_eq_true_eq]
      exact le_total _ _

end Weighted

/-! ### Set operations -/

/-- The executor with its results in another order. -/
def Executor.reorder (ex : Executor α) (results : List (RuleResult α)) : Executor α :=
  { ex with ruleResults := results }

/-- Combinations are set operations on entities. -/
structure SetOperation (ex : Executor α) : Prop where
  intersection_nodup : ex.combineIntersection.entities.Nodup
  mem_intersection : ∀ e, e ∈ ex.combineIntersection.entities ↔
    ex.ruleResults ≠ [] ∧ ∀ rr ∈ ex.ruleResults, e ∈ rr.entities
  union_nodup : ex.combineUnion.entities.Nodup
  mem_union : ∀ e, e ∈ ex.combineUnion.entities ↔ ∃ rr ∈ ex.ruleResults, e ∈ rr.entities
  weighted : ∃ combined, ex.combineWeightedScore = some combined ∧
    combined.entities.Nodup ∧
    (∀ e, e ∈ combined.entities ↔ ∃ rr ∈ ex.ruleResults, e ∈ rr.entities) ∧
    (∀ row ∈ combined.result, row.score = weightedSum ex.ruleResults row.entity) ∧
    combined.result.Pairwise fun x y => y.score ≤ x.score
  reordered : ∀ results, results.Perm ex.ruleResults → ∀ e,
    (e ∈ (ex.reorder results).combineIntersection.entities ↔
      e ∈ ex.combineIntersection.entities) ∧
    (e ∈ (ex.reorder results).combineUnion.entities ↔ e ∈ ex.combineUnion.entities) ∧
    ((∃ combined, (ex.reorder results).combineWeightedScore = some combined ∧
        e ∈ combined.entities) ↔
      ∃ combined, ex.combineWeightedScore = some combined ∧ e ∈ combined.entities)

/-- The first rule yields no entity of all rules twice. -/
def FirstOnce (ex : Executor α) : Prop :=
  ((ex.firstResult.filter fun row =>
    ex.ruleResults.all fun rr => row.entity ∈ rr.entities).map Row.entity).Nodup

/-- What repeated rows add to the score of an entity cancels out. -/
def NoSurplus (results : List (RuleResult α)) : Prop :=
  ∀ e, (results.map fun rr => rr.surplus e).sum = 0

section SetOperation

variable {ex : Executor α}

theorem OneKind.reorder (h : OneKind ex.ruleResults) {results : List (RuleResult α)}
    (hperm : results.Perm ex.ruleResults) : OneKind (ex.reorder results).ruleResults :=
  fun rr hrr x hx rr' hrr' y hy =>
    h rr (hperm.mem_iff.mp hrr) x hx rr' (hperm.mem_iff.mp hrr') y hy

theorem NumbersFit.reorder (h : NumbersFit ex) {results : List (RuleResult α)}
    (hperm : results.Perm ex.ruleResults) : NumbersFit (ex.reorder results) := by
  intro e
  have hrows : (ex.reorder results).weightedRows.Perm ex.weightedRows := hperm.flatMap_right _
  have htypes := (hrows.filter fun weighted => weighted.1.entity = e).flatMap_right
    fun weighted => [weighted.1.metric.type, weighted.2.type]
  exact (h e).imp (mt htypes.mem_iff.mp) (mt htypes.mem_iff.mp)

theorem mem_combineUnion (h : OneKind ex.ruleResults) (e : EntityRef) :
    e ∈ ex.combineUnion.entities ↔ ∃ rr ∈ ex.ruleResults, e ∈ rr.entities := by
  rw [Combined.entities, combineUnion_result, mem_firsts_entities h]

/-- The entities of the weighted scores are those of the union. -/
theorem mem_combineWeightedScore (h : OneKind ex.ruleResults) (hfit : NumbersFit ex)
    (e : EntityRef) :
    (∃ combined, ex.combineWeightedScore = some combined ∧ e ∈ combined.entities) ↔
      ∃ rr ∈ ex.ruleResults, e ∈ rr.entities := by
  obtain ⟨combined, hcombined⟩ :=
    Option.isSome_iff_exists.mp ((combineWeightedScore_isSome h).mpr hfit)
  have hmem := (combineWeightedScore_spec h hcombined).1.mem_iff (a := e)
  rw [mem_firsts_entities h] at hmem
  rw [hcombined, ← hmem]
  simp

theorem exists_mem_perm {results results' : List (RuleResult α)} (hperm : results.Perm results')
    (e : EntityRef) : (∃ rr ∈ results, e ∈ rr.entities) ↔ ∃ rr ∈ results', e ∈ rr.entities := by
  simp only [hperm.mem_iff]

/-- **When the combinations are set operations**: no id occurs under two kinds, the first rule
yields no entity of all rules twice, the repeated rows of an entity are worth nothing, and no
entity's numbers mix a `Decimal` with a `float`. -/
theorem setOperation_iff (ex : Executor α) :
    SetOperation ex ↔
      OneKind ex.ruleResults ∧ FirstOnce ex ∧ NoSurplus ex.ruleResults ∧ NumbersFit ex := by
  constructor
  · intro h
    have hkind : OneKind ex.ruleResults := by
      refine oneKind_of_mem_firsts fun rr hrr row hrow => ?_
      rw [← combineUnion_result]
      exact (h.mem_union _).mpr ⟨rr, hrr, mem_entities.mpr ⟨row, hrow, rfl⟩⟩
    obtain ⟨combined, hcombined, -, hmem, hscore, -⟩ := h.weighted
    obtain ⟨-, hspec, -⟩ := combineWeightedScore_spec hkind hcombined
    refine ⟨hkind, ?_, fun e => ?_, ?_⟩
    · have hnodup := h.intersection_nodup
      rwa [Combined.entities, combineIntersection_entities hkind] at hnodup
    · by_cases he : ∃ rr ∈ ex.ruleResults, e ∈ rr.entities
      · obtain ⟨row, hrow, rfl⟩ := List.mem_map.mp ((hmem e).mpr he)
        have hsum := (hspec row hrow).2
        rw [hscore row hrow] at hsum
        linarith
      · refine List.sum_eq_zero fun q hq => ?_
        obtain ⟨rr, hrr, rfl⟩ := List.mem_map.mp hq
        have hnone : ofKey Row.entity rr.result e = [] :=
          List.filter_eq_nil_iff.mpr fun row hrow heq =>
            he ⟨rr, hrr, mem_entities.mpr ⟨row, hrow, of_decide_eq_true heq⟩⟩
        rw [RuleResult.surplus, hnone]
        exact mul_zero _
    · exact (combineWeightedScore_isSome hkind).mp (Option.isSome_iff_exists.mpr ⟨_, hcombined⟩)
  · rintro ⟨hkind, honce, hsurplus, hfit⟩
    obtain ⟨combined, hcombined⟩ :=
      Option.isSome_iff_exists.mp ((combineWeightedScore_isSome hkind).mpr hfit)
    obtain ⟨hperm, hspec, hsorted⟩ := combineWeightedScore_spec hkind hcombined
    refine ⟨?_, fun e => mem_combineIntersection hkind, ?_, mem_combineUnion hkind,
      ⟨combined, hcombined, ?_, fun e => ?_, fun row hrow => ?_, hsorted⟩,
      fun results hresults e => ⟨?_, ?_, ?_⟩⟩
    · rwa [Combined.entities, combineIntersection_entities hkind]
    · rw [Combined.entities, combineUnion_result]
      exact nodup_firsts_entities ex
    · exact hperm.nodup_iff.mpr (nodup_firsts_entities ex)
    · rw [hperm.mem_iff, mem_firsts_entities hkind]
    · rw [(hspec row hrow).2, hsurplus row.entity, add_zero]
    · rw [mem_combineIntersection (hkind.reorder hresults), mem_combineIntersection hkind]
      refine and_congr (not_congr ?_) (forall_congr' fun rr => ?_)
      · exact ⟨fun h => List.nil_perm.mp (h ▸ hresults), fun h => List.perm_nil.mp (h ▸ hresults)⟩
      · rw [show rr ∈ (ex.reorder results).ruleResults ↔ rr ∈ ex.ruleResults from hresults.mem_iff]
    · rw [mem_combineUnion (hkind.reorder hresults), mem_combineUnion hkind]
      exact exists_mem_perm hresults e
    · rw [mem_combineWeightedScore (hkind.reorder hresults) (hfit.reorder hresults),
        mem_combineWeightedScore hkind hfit]
      exact exists_mem_perm hresults e

end SetOperation

/-! ### Executions -/

/-- The rules add their results in order. -/
theorem runRules_ok {engine : QueryEngine γ α} {rules : List CriteriaRule} {ex ex' : Executor α}
    (h : ex.runRules engine rules = (ex', .ok ())) :
    ∃ added, ex'.ruleResults = ex.ruleResults ++ added ∧ added.map RuleResult.rule = rules ∧
      ∀ rr ∈ added, ∃ queryConfig,
        engine.buildQueryFromTemplate rr.rule.templateId rr.rule.params = some queryConfig ∧
          engine.runQuery queryConfig = .ok rr.result := by
  induction rules generalizing ex with
  | nil =>
      obtain rfl := (Prod.mk.inj h).1
      exact ⟨[], (List.append_nil _).symm, rfl, fun _ hrr => absurd hrr List.not_mem_nil⟩
  | cons rule rules ih =>
      rw [Executor.runRules] at h
      split at h
      · cases (Prod.mk.inj h).2
      · next queryConfig hbuild =>
          split at h
          · cases (Prod.mk.inj h).2
          · next result hresult =>
              obtain ⟨added, hadded, hmap, hanswers⟩ := ih h
              refine ⟨⟨rule, result⟩ :: added, by simp [hadded], by simp [hmap], ?_⟩
              intro rr hrr
              rcases List.mem_cons.mp hrr with rfl | hrr
              · exact ⟨queryConfig, hbuild, hresult⟩
              · exact hanswers rr hrr

/-- **An execution combines the results it has added to those of earlier ones.** -/
theorem execute_ok {engine : QueryEngine γ α} {ex ex' : Executor α} {combined : Combined α}
    (h : ex.execute engine = (ex', .ok combined)) :
    ∃ added, ex'.ruleResults = ex.ruleResults ++ added ∧
      added.map RuleResult.rule = ex.query.rules ∧
      (∀ rr ∈ added, ∃ queryConfig,
        engine.buildQueryFromTemplate rr.rule.templateId rr.rule.params = some queryConfig ∧
          engine.runQuery queryConfig = .ok rr.result) ∧
      ex'.combine = .ok combined := by
  unfold Executor.execute at h
  split at h
  · cases (Prod.mk.inj h).2
  · next after hrun =>
      obtain ⟨rfl, hcombine⟩ := Prod.mk.inj h
      obtain ⟨added, hadded, hmap, hanswers⟩ := runRules_ok hrun
      exact ⟨added, hadded, hmap, hanswers, hcombine⟩

/-- Queries of a contest in which team 1 has cleared two categories first and leads the board,
and solve 1 is a first blood. -/
def contestQueries : QueryEngine String Unit where
  buildQueryFromTemplate := fun templateId _ => some templateId
  runQuery := fun templateId =>
    let team : ℚ → Row Unit := fun metric => ⟨⟨.team, 1⟩, some ⟨.int, metric⟩, none, ()⟩
    if templateId = "first_clear_each_category" then .ok [team 2, team 1]
    else if templateId = "first_blood_by_category" then
      .ok [⟨⟨.solve, 1⟩, some ⟨.int, 1⟩, none, ()⟩]
    else .ok [team 3]

/-- The executor after it has asked for two templates. -/
def afterTemplates (first second : String) : Executor Unit :=
  ((Executor.init ⟨[⟨first, [], ⟨.float, 1⟩⟩, ⟨second, [], ⟨.float, 1⟩⟩], "AND", "intersection",
    ""⟩).execute contestQueries).1

/-- A team that has cleared two categories first is in the intersection twice. -/
theorem not_setOperation_firstClears :
    ¬ SetOperation (afterTemplates "first_clear_each_category" "solve_count_champions") :=
  fun h => absurd h.intersection_nodup (by decide)

/-- A solve and a team with its id are one entity of the union. -/
example :
    (afterTemplates "first_blood_by_category" "solve_count_champions").combineUnion.entities =
      [⟨.solve, 1⟩] := by decide

end Fctf.MultiCriteria
