import Fctf.Keys
import Fctf.Lib.BindText
import Mathlib.Data.Rat.Floor
import Mathlib.Data.List.Forall2

/-!
# Reward Queries

An organiser asks for the teams, or the solves, that earn a reward, and says what to filter them
by. The management platform checks the question and compiles it to one SQL statement, with the
values of the filters bound to its parameters.

## Main definitions

* `validateQuerySpec`: which questions are accepted.
* `compileQuery`: the statement of a question, and the parameters that are bound with it.
-/

namespace Fctf

namespace Rewards

open BindText

/-! ### Questions -/

/-- A JSON value, as Python has it. -/
inductive Value where
  | null
  | bool (b : Bool)
  | int (n : ℤ)
  | float (x : ℚ)
  | str (s : String)
  | list (l : List Value)
  | dict (l : List (String × Value))

/-- `bool(value)`. -/
def Value.truth : Value → Bool
  | .null => false
  | .bool b => b
  | .int n => n ≠ 0
  | .float x => x ≠ 0
  | .str s => s ≠ ""
  | .list l => !l.isEmpty
  | .dict l => !l.isEmpty

/-- The digits of `int(s)`, with single underscores between them. -/
def parseDigits (text : List Char) : Option ℕ :=
  if (text.splitOn '_').all fun part => part ≠ [] ∧ part.all Char.isDigit then
    some ((text.filter Char.isDigit).foldl (fun n c => n * 10 + (c.toNat - '0'.toNat)) 0)
  else none

/-- `int(s)` of a text with ASCII digits. -/
def parseInt (s : String) : Option ℤ :=
  match (s.toList.dropWhile Char.isWhitespace).reverse.dropWhile Char.isWhitespace |>.reverse with
  | '-' :: rest => (parseDigits rest).map fun n => -(n : ℤ)
  | '+' :: rest => (parseDigits rest).map fun n => (n : ℤ)
  | rest => (parseDigits rest).map fun n => (n : ℤ)

/-- `int(value)`. -/
def Value.toInt : Value → Option ℤ
  | .bool b => some b.toInt
  | .int n => some n
  | .float x => some (if x < 0 then -⌊-x⌋ else ⌊x⌋)
  | .str s => parseInt s
  | .null | .list _ | .dict _ => none

/-- `ALLOWED_ENTITIES`. -/
inductive Entity where
  | team
  | solve
  deriving DecidableEq, Repr

/-- `ALLOWED_METRICS`. -/
inductive Metric where
  | teamTotalScore
  | teamSolvedCount
  | firstBlood
  | teamFirstBloodCount
  | wrongSubmissionCount
  | teamCategoryClearCount
  | teamPerfectSolveCount
  deriving DecidableEq, Repr

/-- `FILTER_FIELDS`. -/
inductive FilterField where
  | category
  | rank
  | solvedCount
  | wrongCount
  | solveTime
  | firstBlood
  | hintUsed
  | totalScore
  | firstBloodCount
  | categoryClearCount
  | teamId
  | challengeId
  | bracketId
  | fullClearCategory
  | firstClearEachCategory
  deriving DecidableEq, Repr

/-- `FILTER_OPERATORS`. -/
inductive FilterOperator where
  | eq
  | isIn
  | le
  | ge
  | lt
  | gt
  deriving DecidableEq, Repr

/-- `ORDER_FIELDS`. -/
inductive OrderField where
  | entityId
  | entityName
  | metricValue
  | lastSolveDate
  deriving DecidableEq, Repr

/-- `ORDER_DIRECTIONS`. -/
inductive OrderDirection where
  | asc
  | desc
  deriving DecidableEq, Repr

def Entity.names : List (String × Entity) := [("team", .team), ("solve", .solve)]

def Metric.names : List (String × Metric) :=
  [("TEAM_TOTAL_SCORE", .teamTotalScore), ("TEAM_SOLVED_COUNT", .teamSolvedCount),
    ("FIRST_BLOOD", .firstBlood), ("TEAM_FIRST_BLOOD_COUNT", .teamFirstBloodCount),
    ("WRONG_SUBMISSION_COUNT", .wrongSubmissionCount),
    ("TEAM_CATEGORY_CLEAR_COUNT", .teamCategoryClearCount),
    ("TEAM_PERFECT_SOLVE_COUNT", .teamPerfectSolveCount)]

def FilterField.names : List (String × FilterField) :=
  [("category", .category), ("rank", .rank), ("solved_count", .solvedCount),
    ("wrong_count", .wrongCount), ("solve_time", .solveTime), ("first_blood", .firstBlood),
    ("hint_used", .hintUsed), ("total_score", .totalScore),
    ("first_blood_count", .firstBloodCount), ("category_clear_count", .categoryClearCount),
    ("team_id", .teamId), ("challenge_id", .challengeId), ("bracket_id", .bracketId),
    ("full_clear_category", .fullClearCategory),
    ("first_clear_each_category", .firstClearEachCategory)]

def FilterOperator.text : FilterOperator → String
  | .eq => "="
  | .isIn => "IN"
  | .le => "<="
  | .ge => ">="
  | .lt => "<"
  | .gt => ">"

def FilterOperator.names : List (String × FilterOperator) :=
  [.eq, .isIn, .le, .ge, .lt, .gt].map fun operator => (operator.text, operator)

def OrderField.text : OrderField → String
  | .entityId => "entity_id"
  | .entityName => "entity_name"
  | .metricValue => "metric_value"
  | .lastSolveDate => "last_solve_date"

def OrderField.names : List (String × OrderField) :=
  [.entityId, .entityName, .metricValue, .lastSolveDate].map fun field => (field.text, field)

def OrderDirection.names : List (String × OrderDirection) := [("asc", .asc), ("desc", .desc)]

/-- `FilterSpec`. `IN` has a list. -/
structure FilterSpec where
  field : FilterField
  operator : FilterOperator
  value : Value
  isIn_list : operator = .isIn → ∃ l, value = .list l

/-- `spec.order`. -/
structure Order where
  field : Option OrderField
  direction : OrderDirection
  deriving DecidableEq, Repr

/-- `QuerySpec`. -/
structure QuerySpec where
  rule : String
  entity : Entity
  metric : Metric
  filters : List FilterSpec
  limit : ℤ
  order : Order

/-- `QuerySpecError`, and what Python raises itself. -/
inductive QuerySpecError where
  | invalidRule
  | invalidEntity
  | invalidMetric
  | filtersNoList
  | invalidLimit
  | invalidOrderField
  | invalidOrderDirection
  | invalidFilterField
  | invalidFilterOperator
  | isInNoList
  | schemaMismatch (table : String) (missing : List String)
  | unsupportedMetric
  | rankOfSolve
  /-- `AttributeError`, `TypeError` or `ValueError`. -/
  | python
  deriving DecidableEq, Repr

/-- A name among others. A list or a dictionary cannot be looked up. -/
def named {α : Type} (names : List (String × α)) (error : QuerySpecError) :
    Option Value → Except QuerySpecError α
  | some (.str s) => (names.lookup s).elim (.error error) .ok
  | some (.list _) | some (.dict _) => .error .python
  | _ => .error error

/-- One round of `_parse_filters`. -/
def parseFilter : Value → Except QuerySpecError FilterSpec
  | .dict f => do
    let field ← named FilterField.names .invalidFilterField (f.lookup "field")
    let operator ← named FilterOperator.names .invalidFilterOperator (f.lookup "operator")
    match operator, (f.lookup "value").getD .null with
    | .isIn, .list l => .ok ⟨field, .isIn, .list l, fun _ => ⟨l, rfl⟩⟩
    | .isIn, _ => .error .isInNoList
    | .eq, value => .ok ⟨field, .eq, value, nofun⟩
    | .le, value => .ok ⟨field, .le, value, nofun⟩
    | .ge, value => .ok ⟨field, .ge, value, nofun⟩
    | .lt, value => .ok ⟨field, .lt, value, nofun⟩
    | .gt, value => .ok ⟨field, .gt, value, nofun⟩
  | _ => .error .python

/-- `limit`, a positive integer. `True` is one. -/
def parseLimit : Option Value → Except QuerySpecError ℤ
  | none => .ok 500
  | some (.int n) => if n ≤ 0 then .error .invalidLimit else .ok n
  | some (.bool true) => .ok 1
  | some _ => .error .invalidLimit

/-- `order`. -/
def parseOrder : Option Value → Except QuerySpecError Order
  | none => .ok ⟨none, .asc⟩
  | some (.dict order) => do
    let field ← match order.lookup "field" with
      | none | some .null => .ok none
      | field => (named OrderField.names .invalidOrderField field).map some
    let direction ← match order.lookup "direction" with
      | none => .ok .asc
      | direction => named OrderDirection.names .invalidOrderDirection direction
    .ok ⟨field, direction⟩
  | some _ => .error .python

/-- `validate_query_spec`. -/
def validateQuerySpec (payload : List (String × Value)) : Except QuerySpecError QuerySpec := do
  let rule ← match payload.lookup "rule" with
    | some (.str rule) => if rule = "" then .error .invalidRule else .ok rule
    | _ => .error .invalidRule
  let entity ← named Entity.names .invalidEntity (payload.lookup "entity")
  let metric ← named Metric.names .invalidMetric (payload.lookup "metric")
  let filters ← match payload.lookup "filters" with
    | none => .ok []
    | some (.list filters) => .ok filters
    | some _ => .error .filtersNoList
  let limit ← parseLimit (payload.lookup "limit")
  let order ← parseOrder (payload.lookup "order")
  let filters ← filters.mapM parseFilter
  .ok ⟨rule, entity, metric, filters, limit, order⟩

/-! ### Conditions -/

/-- The right side of a condition. -/
inductive Operand where
  | bind (key : String)
  | binds (keys : List String)
  | literal (text : String)
  deriving DecidableEq, Repr

/-- A condition. -/
structure Condition where
  left : String
  operator : FilterOperator
  right : Operand
  deriving DecidableEq, Repr

/-- The SQL of a condition. -/
def Condition.pieces (c : Condition) : List Piece :=
  match c.right with
  | .bind key => [.sql (c.left ++ " " ++ c.operator.text ++ " "), .bind key]
  | .binds keys =>
    .sql (c.left ++ " " ++ c.operator.text ++ " (") ::
      ([Piece.sql ", "].intercalate (keys.map fun key => [.bind key]) ++ [.sql ")"])
  | .literal text => [.sql (c.left ++ " " ++ c.operator.text ++ " " ++ text)]

/-- Conditions after a keyword, if there are any. -/
def clause (keyword : String) (conditions : List Condition) : List Piece :=
  if conditions = [] then []
  else .sql (keyword ++ " ") ::
    [Piece.sql " AND "].intercalate (conditions.map Condition.pieces)

/-- The bound parameters. -/
abbrev Params := String → Option Value

/-- What the loop of `compile_query` has collected. -/
structure Collected where
  params : Params
  base : List Condition
  agg : List Condition
  rank : List Condition
  bracketFilter : Option String
  fullClearCategory : Value
  firstClearEachCategory : Bool

/-- Before the loop. -/
def Collected.start : Collected := ⟨fun _ => none, [], [], [], none, .null, false⟩

/-- `f"param_{idx}"`. -/
def paramKey (idx : ℕ) : String := "param_" ++ idx.repr

/-- `f"{key}_{j}"`. -/
def itemKey (idx j : ℕ) : String := paramKey idx ++ "_" ++ j.repr

/-- `params[key] = value`. -/
def Collected.bind (c : Collected) (key : String) (value : Value) : Collected :=
  { c with params := Function.update c.params key (some value) }

/-- `params` with the items of a list. -/
def Collected.bindItems (c : Collected) (idx : ℕ) (items : List Value) : Collected :=
  items.zipIdx.foldl (fun c item => c.bind (itemKey idx item.2) item.1) c

/-- What is bound for a value of a filter. -/
def converted (field : FilterField) (value : Value) : Except QuerySpecError Value :=
  match field with
  | .firstBlood | .hintUsed => .ok (.bool value.truth)
  | .teamId | .challengeId | .bracketId => match value.toInt with
    | some n => .ok (.int n)
    | none => .error .python
  | _ => .ok value

/-- A condition of a solve or of what was counted, with one parameter or with one for each item
of a list. -/
def compare (f : FilterSpec) (idx : ℕ) (left : String) (operator : FilterOperator)
    (c : Collected) : Except QuerySpecError (Condition × Collected) := do
  let value ← converted f.field f.value
  .ok (⟨left, operator, .bind (paramKey idx)⟩, c.bind (paramKey idx) value)

/-- `IN` with one parameter for each item. -/
def compareItems (f : FilterSpec) (idx : ℕ) (left : String) (c : Collected) :
    Except QuerySpecError (Condition × Collected) :=
  match f.value with
  | .list items => do
    let values ← items.mapM (converted f.field)
    .ok (⟨left, .isIn, .binds ((List.range items.length).map (itemKey idx))⟩,
      c.bindItems idx values)
  | _ => .error .python

/-- One round of the loop of `compile_query`. -/
def collect (entity : Entity) (c : Collected) (f : FilterSpec × ℕ) :
    Except QuerySpecError Collected :=
  let (f, idx) := f
  let base (p : Condition × Collected) : Collected := { p.2 with base := p.2.base ++ [p.1] }
  let agg (p : Condition × Collected) : Collected := { p.2 with agg := p.2.agg ++ [p.1] }
  match f.field with
  | .category =>
    if f.operator = .isIn then (compareItems f idx "sf.category" c).map base
    else (compare f idx "sf.category" f.operator c).map base
  | .solveTime => (compare f idx "sf.solve_time" f.operator c).map base
  | .firstBlood => (compare f idx "sf.is_first_blood" .eq c).map base
  | .hintUsed => (compare f idx "sf.hint_used" .eq c).map base
  | .solvedCount => (compare f idx "solved_count" f.operator c).map agg
  | .wrongCount =>
    (compare f idx (if entity = .solve then "wrong_before" else "wrong_count") f.operator c).map agg
  | .rank =>
    if entity ≠ .team then .error .rankOfSolve
    else (compare f idx "rank" f.operator c).map fun p => { p.2 with rank := p.2.rank ++ [p.1] }
  | .totalScore => (compare f idx "total_score" f.operator c).map agg
  | .firstBloodCount => (compare f idx "first_blood_count" f.operator c).map agg
  | .categoryClearCount => (compare f idx "category_clear_count" f.operator c).map agg
  | .teamId => (compare f idx "sf.team_id" .eq c).map base
  | .challengeId =>
    if f.operator = .isIn then (compareItems f idx "sf.challenge_id" c).map base
    else (compare f idx "sf.challenge_id" f.operator c).map base
  | .bracketId => (converted .bracketId f.value).map fun value =>
    { c.bind (paramKey idx) value with bracketFilter := some (paramKey idx) }
  | .fullClearCategory =>
    .ok { c.bind (paramKey idx) f.value with
      fullClearCategory := f.value
      agg := c.agg ++ [⟨"full_clear_pass", .eq, .literal "1"⟩] }
  | .firstClearEachCategory => .ok { c with firstClearEachCategory := f.value.truth }

/-! ### The statement -/

/-- What a statement is made of besides the names of its parameters. -/
structure Statement where
  /-- Is the database MySQL or MariaDB? -/
  mysql : Bool
  entity : Entity
  metric : Metric
  base : List Condition
  agg : List Condition
  rank : List Condition
  bracketFilter : Option String
  /-- Is a category to be cleared? -/
  fullClear : Bool
  firstClearEachCategory : Bool
  order : Order
  deriving DecidableEq, Repr

/-- `solve_time_expr`. -/
def solveTimeExpr (mysql : Bool) : String :=
  if mysql then "UNIX_TIMESTAMP(s.date)" else "EXTRACT(EPOCH FROM s.date)"

/-- `base_ctes`. -/
def baseCtes (s : Statement) : List Piece :=
  [.sql "
WITH base_solves AS (
    SELECT
        s.id AS solve_id,
        s.team_id,
        s.user_id,
        s.challenge_id,
        s.date AS solve_date,
        c.value AS challenge_value,
        c.category AS category,
        c.name AS challenge_name,
        ",
    .sql (solveTimeExpr s.mysql),
    .sql " AS solve_time
    FROM submissions s
    JOIN solves sol ON sol.id = s.id
    JOIN challenges c ON c.id = s.challenge_id
    WHERE s.type = 'correct'
),
first_bloods AS (
    SELECT challenge_id, MIN(solve_date) AS first_blood_date
    FROM base_solves
    GROUP BY challenge_id
),
hint_usage AS (
    SELECT u.team_id, h.challenge_id
    FROM unlocks u
    JOIN hints h ON h.id = u.target
    WHERE u.type = 'hints'
    GROUP BY u.team_id, h.challenge_id
),
solves_enriched AS (
    SELECT
        b.*,
        (b.solve_date = fb.first_blood_date) AS is_first_blood,
        CASE WHEN hu.challenge_id IS NULL THEN FALSE ELSE TRUE END AS hint_used
    FROM base_solves b
    LEFT JOIN first_bloods fb ON fb.challenge_id = b.challenge_id
    LEFT JOIN hint_usage hu
        ON hu.challenge_id = b.challenge_id
        AND hu.team_id = b.team_id
),
solves_filtered AS (
    SELECT *
    FROM solves_enriched sf
    "] ++
    clause "WHERE" s.base ++
  [.sql "
),
category_totals AS (
    SELECT c.category, COUNT(DISTINCT c.id) AS total_challenges
    FROM challenges c
    GROUP BY c.category
),
team_awards AS (
    SELECT team_id, COALESCE(SUM(value), 0) AS award_value
    FROM awards
    WHERE team_id IS NOT NULL AND value != 0
    GROUP BY team_id
),
wrong_team AS (
    SELECT team_id, COUNT(*) AS wrong_count
    FROM submissions
    WHERE type = 'incorrect'
    GROUP BY team_id
),
wrong_before AS (
    SELECT
        s.id AS solve_id,
        COUNT(w.id) AS wrong_before
    FROM submissions s
    JOIN solves sol ON sol.id = s.id
    LEFT JOIN submissions w
        ON w.challenge_id = s.challenge_id
        AND w.type = 'incorrect'
        AND w.date < s.date
        AND w.team_id = s.team_id
    GROUP BY s.id
)
"]

/-- The columns of the metrics of teams. -/
def teamMetric : Metric → Option String
  | .teamTotalScore => some "total_score"
  | .teamSolvedCount => some "solved_count"
  | .teamFirstBloodCount => some "first_blood_count"
  | .wrongSubmissionCount => some "wrong_count"
  | .teamCategoryClearCount => some "category_clear_count"
  | .teamPerfectSolveCount => some "perfect_solve_count"
  | .firstBlood => none

/-- `rank_order_expr`. -/
def rankOrderExpr (s : Statement) : String :=
  if s.fullClear ∧ s.order = ⟨some .lastSolveDate, .asc⟩ then
    "ta.category_full_clear_date ASC, ta.entity_id ASC"
  else
    match s.metric with
    | .teamTotalScore => "ta.total_score DESC, ta.solved_count DESC, ta.last_solve_date ASC, ta.entity_id ASC"
    | .teamSolvedCount => "ta.solved_count DESC, ta.total_score DESC, ta.last_solve_date ASC, ta.entity_id ASC"
    | .teamFirstBloodCount => "ta.first_blood_count DESC, ta.total_score DESC, ta.last_solve_date ASC, ta.entity_id ASC"
    | .wrongSubmissionCount => "ta.wrong_count DESC, ta.total_score DESC, ta.last_solve_date ASC, ta.entity_id ASC"
    | .teamCategoryClearCount => "ta.category_clear_count DESC, ta.total_score DESC, ta.last_solve_date ASC, ta.entity_id ASC"
    | _ => "ta.perfect_solve_count DESC, ta.total_score DESC, ta.last_solve_date ASC, ta.entity_id ASC"

/-- The filter by a bracket. -/
def bracketClause (s : Statement) : List Piece :=
  match s.bracketFilter with
  | none => []
  | some key => [.sql "WHERE t.bracket_id = ", .bind key]

/-- A positive metric, for teams. -/
def metricCondition (s : Statement) : List Condition :=
  match s.entity, teamMetric s.metric with
  | .team, some column => [⟨column, .gt, .literal "0"⟩]
  | _, _ => []

/-- `final_conditions`. -/
def finalConditions (s : Statement) : List Condition := s.rank ++ s.agg ++ metricCondition s

/-- `order_clause`. -/
def orderClause (order : Order) : String :=
  match order.field with
  | none => "ORDER BY entity_id ASC"
  | some field => "ORDER BY " ++ field.text ++
    (if order.direction = .desc then " DESC" else " ASC") ++ ", entity_id ASC"

/-- The statement for the first teams to clear the categories. -/
def firstClearSql (s : Statement) : List Piece :=
  [.sql "\n"] ++ baseCtes s ++
  [.sql ",
team_category_completion AS (
    SELECT
        t.id AS entity_id,
        t.name AS entity_name,
        sf.category AS category,
        COUNT(DISTINCT sf.challenge_id) AS solved_count,
        MAX(sf.solve_date) AS full_clear_date,
        ct.total_challenges
    FROM teams t
    JOIN solves_filtered sf ON sf.team_id = t.id
    JOIN category_totals ct ON ct.category = sf.category
    "] ++
    bracketClause s ++
  [.sql "
    GROUP BY t.id, t.name, sf.category, ct.total_challenges
    HAVING COUNT(DISTINCT sf.challenge_id) >= ct.total_challenges
),
ranked AS (
    SELECT
        tcc.*,
        RANK() OVER (PARTITION BY tcc.category ORDER BY tcc.full_clear_date ASC, tcc.entity_id ASC) AS rank
    FROM team_category_completion tcc
)
SELECT entity_id, entity_name, category, solved_count AS metric_value, full_clear_date AS last_solve_date, rank
FROM ranked
WHERE rank = 1
ORDER BY category ASC, entity_id ASC
LIMIT ",
    .bind "limit",
    .sql "
"]

/-- The statement for teams. -/
def teamSql (s : Statement) : List Piece :=
  [.sql "\n"] ++ baseCtes s ++
  [.sql ",
team_agg AS (
    SELECT
        t.id AS entity_id,
        t.name AS entity_name,
        COUNT(sf.solve_id) AS solved_count,
        COUNT(DISTINCT CASE WHEN ",
    .bind "full_clear_category",
    .sql " IS NOT NULL AND sf.category = ",
    .bind "full_clear_category",
    .sql " THEN sf.challenge_id END) AS category_solved_count,
        COALESCE((SELECT ct.total_challenges FROM category_totals ct WHERE ct.category = ",
    .bind "full_clear_category",
    .sql "), 0) AS category_total_count,
        MAX(CASE WHEN ",
    .bind "full_clear_category",
    .sql " IS NOT NULL AND sf.category = ",
    .bind "full_clear_category",
    .sql " THEN sf.solve_date END) AS category_full_clear_date,
        COALESCE(SUM(sf.challenge_value), 0) + COALESCE(ta.award_value, 0) AS total_score,
        MIN(sf.solve_time) AS fastest_solve,
        AVG(sf.solve_time) AS avg_solve_time,
        COALESCE(SUM(CASE WHEN sf.is_first_blood THEN 1 ELSE 0 END), 0) AS first_blood_count,
        COUNT(DISTINCT sf.category) AS category_clear_count,
        COALESCE(
            SUM(CASE WHEN sf.solve_id IS NOT NULL AND COALESCE(wb.wrong_before, 0) = 0 THEN 1 ELSE 0 END),
            0
        ) AS perfect_solve_count,
        COALESCE(wt.wrong_count, 0) AS wrong_count,
        MAX(sf.solve_date) AS last_solve_date
    FROM teams t
    LEFT JOIN solves_filtered sf ON sf.team_id = t.id
    LEFT JOIN wrong_team wt ON wt.team_id = t.id
    LEFT JOIN wrong_before wb ON wb.solve_id = sf.solve_id
    LEFT JOIN team_awards ta ON ta.team_id = t.id
    "] ++
    bracketClause s ++
  [.sql "
    GROUP BY t.id, t.name, wt.wrong_count, ta.award_value
),
ranked AS (
    SELECT
        ta.*,
        CASE
            WHEN ",
    .bind "full_clear_category",
    .sql " IS NULL THEN 1
            WHEN ta.category_total_count > 0 AND ta.category_solved_count >= ta.category_total_count THEN 1
            ELSE 0
        END AS full_clear_pass,
        RANK() OVER (ORDER BY ",
    .sql (rankOrderExpr s),
    .sql ") AS rank
    FROM team_agg ta
)
SELECT entity_id, entity_name, ",
    .sql ((teamMetric s.metric).getD ""),
    .sql " AS metric_value, COALESCE(category_full_clear_date, last_solve_date) AS last_solve_date, solved_count, rank
FROM ranked
"] ++
    clause "WHERE" (finalConditions s) ++
  [.sql "
",
    .sql "ORDER BY rank ASC, entity_id ASC",
    .sql "
LIMIT ",
    .bind "limit",
    .sql "
"]

/-- The metrics of solves. -/
def solveMetric : Metric → String
  | .wrongSubmissionCount => "COALESCE(wrong_before, 0)"
  | _ => "CASE WHEN is_first_blood THEN 1 ELSE 0 END"

/-- The statement for solves. After a bracket the conditions go on with `AND`. -/
def solveSql (s : Statement) : List Piece :=
  [.sql "\n"] ++ baseCtes s ++
  [.sql ",
solve_rows AS (
    SELECT
        sf.solve_id AS entity_id,
        sf.challenge_name AS entity_name,
        sf.category AS category,
        sf.solve_time,
        sf.is_first_blood,
        sf.hint_used,
        sf.team_id,
        sf.user_id,
        COALESCE(wb.wrong_before, 0) AS wrong_before
    FROM solves_filtered sf
    LEFT JOIN wrong_before wb ON wb.solve_id = sf.solve_id
)
SELECT 
    sr.entity_id, 
    sr.entity_name, 
    sr.category, 
    ",
    .sql (solveMetric s.metric),
    .sql " AS metric_value,
    t.name AS team_name
FROM solve_rows sr
LEFT JOIN teams t ON t.id = sr.team_id
"] ++
    bracketClause s ++
  [.sql "
"] ++
    clause (if s.bracketFilter.isSome then "AND" else "WHERE") (finalConditions s) ++
  [.sql "
",
    .sql (orderClause s.order),
    .sql "
LIMIT ",
    .bind "limit",
    .sql "
"]

/-- The SQL of a statement. -/
def Statement.pieces (s : Statement) : List Piece :=
  match s.entity with
  | .solve => solveSql s
  | .team => if s.firstClearEachCategory then firstClearSql s else teamSql s

/-! ### The compiler -/

/-- `_require_columns`. -/
def requireColumns (columns : String → List String) (table : String) (required : List String) :
    Except QuerySpecError Unit :=
  let missing := required.filter fun column => !(columns table).contains column
  if missing = [] then .ok () else .error (.schemaMismatch table missing)

/-- `_assert_schema`. -/
def assertSchema (columns : String → List String) (entity : Entity) :
    Except QuerySpecError Unit := do
  requireColumns columns "submissions" ["id", "team_id", "user_id", "challenge_id", "date", "type"]
  requireColumns columns "solves" ["id"]
  requireColumns columns "challenges" ["id", "value", "category", "name"]
  requireColumns columns "unlocks" ["team_id", "user_id", "target", "type"]
  requireColumns columns "hints" ["id", "challenge_id"]
  requireColumns columns "awards" ["id", "team_id", "user_id", "value", "date"]
  if entity = .team then requireColumns columns "teams" ["id", "name"] else .ok ()

/-- The database: its columns, and whether it is MySQL or MariaDB. -/
structure Schema where
  columns : String → List String
  mysql : Bool

/-- Which metrics an entity has. -/
def supported (entity : Entity) (metric : Metric) : Bool :=
  match entity with
  | .solve => metric = .firstBlood || metric = .wrongSubmissionCount
  | .team => metric ≠ .firstBlood

/-- `compile_query`. -/
def compileQuery (schema : Schema) (spec : QuerySpec) :
    Except QuerySpecError (Statement × Params) := do
  assertSchema schema.columns spec.entity
  if supported spec.entity spec.metric = false then .error .unsupportedMetric
  let c ← spec.filters.zipIdx.foldlM (collect spec.entity) Collected.start
  let params := Function.update (Function.update c.params "limit" (some (.int spec.limit)))
    "full_clear_category" (some c.fullClearCategory)
  .ok (⟨schema.mysql, spec.entity, spec.metric, c.base, c.agg, c.rank, c.bracketFilter,
    c.fullClearCategory.truth, c.firstClearEachCategory, spec.order⟩, params)

end Rewards

end Fctf
