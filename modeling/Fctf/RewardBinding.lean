import Fctf.RewardQuery
import Fctf.Lib.Json

/-!
# Parameters of Reward Queries

The text of a reward query is made of literals and of parameters, which carry the values of its
filters.

## Main results

* `collect_ok`: what one round of the loop over the filters does.
* `compileQuery_sameText`: the text does not depend on the values.
* `placeholders_bound`: every parameter of the text carries the value it was made for.
-/

namespace Fctf.Rewards

open BindText

/-! ### Rounds of the loop -/

/-- The three lists of conditions. -/
inductive Place where
  | base
  | agg
  | rank
  deriving DecidableEq, Repr

def Collected.add (c : Collected) (place : Place) (condition : Condition) : Collected :=
  match place with
  | .base => { c with base := c.base ++ [condition] }
  | .agg => { c with agg := c.agg ++ [condition] }
  | .rank => { c with rank := c.rank ++ [condition] }

/-- The column that a filter is about, and where its condition stands. -/
def FilterField.column (entity : Entity) : FilterField → Option (Place × String)
  | .category => some (.base, "sf.category")
  | .solveTime => some (.base, "sf.solve_time")
  | .firstBlood => some (.base, "sf.is_first_blood")
  | .hintUsed => some (.base, "sf.hint_used")
  | .teamId => some (.base, "sf.team_id")
  | .challengeId => some (.base, "sf.challenge_id")
  | .solvedCount => some (.agg, "solved_count")
  | .wrongCount => some (.agg, if entity = .solve then "wrong_before" else "wrong_count")
  | .totalScore => some (.agg, "total_score")
  | .firstBloodCount => some (.agg, "first_blood_count")
  | .categoryClearCount => some (.agg, "category_clear_count")
  | .rank => some (.rank, "rank")
  | .bracketId | .fullClearCategory | .firstClearEachCategory => none

/-- The operator that is written for a filter. -/
def FilterSpec.writtenOperator (f : FilterSpec) : FilterOperator :=
  match f.field with
  | .firstBlood | .hintUsed | .teamId => .eq
  | _ => f.operator

/-- Is a filter written with one parameter for each item? -/
def FilterSpec.listed (f : FilterSpec) : Bool :=
  f.operator = .isIn && (f.field = .category || f.field = .challengeId)

/-- What one round makes of a filter. -/
inductive Round (entity : Entity) (c : Collected) (f : FilterSpec) (idx : ℕ) : Collected → Prop
  | single {place : Place} {left : String} {value : Value}
      (hcolumn : f.field.column entity = some (place, left)) (hlisted : f.listed = false)
      (hvalue : converted f.field f.value = .ok value) :
      Round entity c f idx ((c.bind (paramKey idx) value).add place
        ⟨left, f.writtenOperator, .bind (paramKey idx)⟩)
  | items {place : Place} {left : String} {items values : List Value}
      (hcolumn : f.field.column entity = some (place, left)) (hlisted : f.listed = true)
      (hitems : f.value = .list items)
      (hvalues : items.mapM (converted f.field) = .ok values) :
      Round entity c f idx ((c.bindItems idx values).add place
        ⟨left, .isIn, .binds ((List.range items.length).map (itemKey idx))⟩)
  | bracket {value : Value} (hfield : f.field = .bracketId)
      (hvalue : converted f.field f.value = .ok value) :
      Round entity c f idx
        { c.bind (paramKey idx) value with bracketFilter := some (paramKey idx) }
  | fullClear (hfield : f.field = .fullClearCategory) :
      Round entity c f idx { c.bind (paramKey idx) f.value with
        fullClearCategory := f.value
        agg := c.agg ++ [⟨"full_clear_pass", .eq, .literal "1"⟩] }
  | firstClear (hfield : f.field = .firstClearEachCategory) :
      Round entity c f idx { c with firstClearEachCategory := f.value.truth }

section Round

/-- A computation that succeeds has succeeded in its first part. -/
theorem exists_of_bind_eq_ok {ε α β : Type} {x : Except ε α} {g : α → Except ε β} {b : β}
    (h : x >>= g = .ok b) : ∃ a, x = .ok a ∧ g a = .ok b := by
  cases x with
  | error e => cases h
  | ok a => exact ⟨a, rfl, h⟩

/-- What a list is mapped to, item by item. -/
theorem getElem?_of_mapM_eq_ok {ε α β : Type} {g : α → Except ε β} {l : List α} {l' : List β}
    (h : l.mapM g = .ok l') {j : ℕ} (hj : j < l.length) :
    ∃ b, l'[j]? = some b ∧ g l[j] = .ok b := by
  induction l generalizing l' j with
  | nil => exact absurd hj (Nat.not_lt_zero j)
  | cons a l ih =>
      rw [List.mapM_cons] at h
      obtain ⟨b, hb, h⟩ := exists_of_bind_eq_ok h
      obtain ⟨rest, hrest, h⟩ := exists_of_bind_eq_ok h
      obtain rfl := Except.ok.inj h
      cases j with
      | zero => exact ⟨b, rfl, hb⟩
      | succ j => exact ih hrest (Nat.lt_of_succ_lt_succ hj)

variable {entity : Entity} {c d : Collected} {f : FilterSpec} {idx : ℕ}

theorem compare_map_ok {left : String} {operator : FilterOperator}
    {g : Condition × Collected → Collected}
    (h : (compare f idx left operator c).map g = .ok d) :
    ∃ value, converted f.field f.value = .ok value ∧
      d = g (⟨left, operator, .bind (paramKey idx)⟩, c.bind (paramKey idx) value) := by
  unfold compare at h
  cases hvalue : converted f.field f.value with
  | error e =>
      rw [hvalue] at h
      cases h
  | ok value =>
      rw [hvalue] at h
      exact ⟨value, rfl, (Except.ok.inj h).symm⟩

theorem compareItems_map_ok {left : String} {g : Condition × Collected → Collected}
    (h : (compareItems f idx left c).map g = .ok d) :
    ∃ items values, f.value = .list items ∧ items.mapM (converted f.field) = .ok values ∧
      d = g (⟨left, .isIn, .binds ((List.range items.length).map (itemKey idx))⟩,
        c.bindItems idx values) := by
  unfold compareItems at h
  cases hitems : f.value with
  | list items =>
      rw [hitems] at h
      cases hvalues : items.mapM (converted f.field) with
      | error e =>
          simp only [hvalues] at h
          cases h
      | ok values =>
          simp only [hvalues] at h
          exact ⟨items, values, rfl, hvalues, (Except.ok.inj h).symm⟩
  | _ =>
      rw [hitems] at h
      cases h

/-- **What one round of the loop does.** -/
theorem collect_ok (h : collect entity c (f, idx) = .ok d) : Round entity c f idx d := by
  obtain ⟨field, operator, value, hin⟩ := f
  cases field with
  | category | challengeId =>
      simp only [collect] at h
      split at h
      · next hisIn =>
          obtain ⟨items, values, hitems, hvalues, rfl⟩ := compareItems_map_ok h
          exact .items rfl (by simp [FilterSpec.listed, hisIn]) hitems hvalues
      · next hisIn =>
          obtain ⟨v, hv, rfl⟩ := compare_map_ok h
          exact .single rfl (by simp [FilterSpec.listed, hisIn]) hv
  | solveTime | firstBlood | hintUsed | solvedCount | wrongCount | totalScore | firstBloodCount
  | categoryClearCount | teamId =>
      simp only [collect] at h
      obtain ⟨v, hv, rfl⟩ := compare_map_ok h
      exact .single rfl (by simp [FilterSpec.listed]) hv
  | rank =>
      simp only [collect] at h
      split at h
      · cases h
      · obtain ⟨v, hv, rfl⟩ := compare_map_ok h
        exact .single rfl (by simp [FilterSpec.listed]) hv
  | bracketId =>
      simp only [collect] at h
      cases hvalue : converted .bracketId value with
      | error e =>
          rw [hvalue] at h
          cases h
      | ok v =>
          rw [hvalue] at h
          obtain rfl := Except.ok.inj h
          exact .bracket rfl hvalue
  | fullClearCategory =>
      obtain rfl := Except.ok.inj h
      exact .fullClear rfl
  | firstClearEachCategory =>
      obtain rfl := Except.ok.inj h
      exact .firstClear rfl

end Round

/-! ### Texts without values -/

/-- Filters that differ in their values only: lists of `IN` are of one length, and the values of
the two fields that are not written into the text agree in truth. -/
structure FilterSpec.Alike (f f' : FilterSpec) : Prop where
  field : f.field = f'.field
  operator : f.operator = f'.operator
  length : ∀ l l', f.operator = .isIn → f.value = .list l → f'.value = .list l' →
    l.length = l'.length
  truth : f.field = .fullClearCategory ∨ f.field = .firstClearEachCategory →
    f.value.truth = f'.value.truth

/-- Specifications that differ in the values of filters, the rule and the limit only. -/
structure QuerySpec.Alike (spec spec' : QuerySpec) : Prop where
  entity : spec.entity = spec'.entity
  metric : spec.metric = spec'.metric
  filters : List.Forall₂ FilterSpec.Alike spec.filters spec'.filters
  order : spec.order = spec'.order

/-- What goes into the text agrees. -/
structure Collected.Alike (c c' : Collected) : Prop where
  base : c.base = c'.base
  agg : c.agg = c'.agg
  rank : c.rank = c'.rank
  bracketFilter : c.bracketFilter = c'.bracketFilter
  fullClearCategory : c.fullClearCategory.truth = c'.fullClearCategory.truth
  firstClearEachCategory : c.firstClearEachCategory = c'.firstClearEachCategory

section Alike

variable {entity : Entity} {c c' d d' : Collected} {f f' : FilterSpec} {idx : ℕ}

theorem FilterSpec.Alike.listed (h : f.Alike f') : f.listed = f'.listed := by
  rw [FilterSpec.listed, FilterSpec.listed, h.field, h.operator]

theorem FilterSpec.Alike.writtenOperator (h : f.Alike f') :
    f.writtenOperator = f'.writtenOperator := by
  rw [FilterSpec.writtenOperator, FilterSpec.writtenOperator, h.field, h.operator]

theorem bindItems_eq (c : Collected) (idx : ℕ) (values : List Value) :
    c.bindItems idx values = { c with params := (c.bindItems idx values).params } := by
  have hloop : ∀ (items : List (Value × ℕ)) (c : Collected),
      items.foldl (fun c item => c.bind (itemKey idx item.2) item.1) c =
        { c with params :=
          (items.foldl (fun c item => c.bind (itemKey idx item.2) item.1) c).params } := by
    intro items
    induction items with
    | nil => exact fun _ => rfl
    | cons item items ih =>
        intro c
        rw [List.foldl_cons, ih]
        rfl
  exact hloop _ c

theorem Collected.Alike.add (h : c.Alike c') (place : Place) (condition : Condition) :
    (c.add place condition).Alike (c'.add place condition) := by
  cases place
  · exact ⟨congrArg (· ++ [condition]) h.base, h.agg, h.rank, h.bracketFilter,
      h.fullClearCategory, h.firstClearEachCategory⟩
  · exact ⟨h.base, congrArg (· ++ [condition]) h.agg, h.rank, h.bracketFilter,
      h.fullClearCategory, h.firstClearEachCategory⟩
  · exact ⟨h.base, h.agg, congrArg (· ++ [condition]) h.rank, h.bracketFilter,
      h.fullClearCategory, h.firstClearEachCategory⟩

theorem Collected.Alike.bind (h : c.Alike c') (key : String) (value value' : Value) :
    (c.bind key value).Alike (c'.bind key value') :=
  ⟨h.base, h.agg, h.rank, h.bracketFilter, h.fullClearCategory, h.firstClearEachCategory⟩

theorem Collected.Alike.bindItems (h : c.Alike c') (idx : ℕ) (values values' : List Value) :
    (c.bindItems idx values).Alike (c'.bindItems idx values') := by
  rw [bindItems_eq c, bindItems_eq c']
  exact ⟨h.base, h.agg, h.rank, h.bracketFilter, h.fullClearCategory, h.firstClearEachCategory⟩

/-- One round for each of two filters that differ in their values. -/
theorem Round.alike (h : c.Alike c') (hf : f.Alike f') (hd : Round entity c f idx d)
    (hd' : Round entity c' f' idx d') : d.Alike d' := by
  have hlisted := hf.listed
  have hfield := hf.field
  cases hd with
  | single hcolumn hnot hvalue =>
      cases hd' with
      | single hcolumn' _ _ =>
          rw [hfield, hcolumn'] at hcolumn
          obtain ⟨rfl, rfl⟩ := Prod.mk.inj (Option.some.inj hcolumn)
          rw [hf.writtenOperator]
          exact (h.bind ..).add ..
      | items _ hlisted' => exact absurd (hlisted.trans hlisted') (by rw [hnot]; decide)
      | bracket h' | fullClear h' | firstClear h' => rw [hfield, h'] at hcolumn; cases hcolumn
  | items hcolumn hlist hitems hvalues =>
      cases hd' with
      | items hcolumn' _ hitems' _ =>
          rw [hfield, hcolumn'] at hcolumn
          obtain ⟨rfl, rfl⟩ := Prod.mk.inj (Option.some.inj hcolumn)
          have hisIn : f.operator = .isIn :=
            of_decide_eq_true (Bool.and_eq_true_iff.mp hlist).1
          rw [hf.length _ _ hisIn hitems hitems']
          exact (h.bindItems ..).add ..
      | single _ hnot' => exact absurd (hlist.symm.trans (hlisted.trans hnot')) (by decide)
      | bracket h' | fullClear h' | firstClear h' => rw [hfield, h'] at hcolumn; cases hcolumn
  | bracket hbracket =>
      rw [hfield] at hbracket
      cases hd' with
      | single hcolumn' | items hcolumn' => rw [hbracket] at hcolumn'; cases hcolumn'
      | fullClear h' | firstClear h' => rw [hbracket] at h'; cases h'
      | bracket =>
          exact ⟨h.base, h.agg, h.rank, rfl, h.fullClearCategory, h.firstClearEachCategory⟩
  | fullClear hfull =>
      have htruth := hf.truth (.inl hfull)
      rw [hfield] at hfull
      cases hd' with
      | single hcolumn' | items hcolumn' => rw [hfull] at hcolumn'; cases hcolumn'
      | bracket h' | firstClear h' => rw [hfull] at h'; cases h'
      | fullClear =>
          exact ⟨h.base, congrArg (· ++ [_]) h.agg, h.rank, h.bracketFilter, htruth,
            h.firstClearEachCategory⟩
  | firstClear hfirst =>
      have htruth := hf.truth (.inr hfirst)
      rw [hfield] at hfirst
      cases hd' with
      | single hcolumn' | items hcolumn' => rw [hfirst] at hcolumn'; cases hcolumn'
      | bracket h' | fullClear h' => rw [hfirst] at h'; cases h'
      | firstClear =>
          exact ⟨h.base, h.agg, h.rank, h.bracketFilter, h.fullClearCategory, htruth⟩

/-- The whole loop. -/
theorem foldlM_collect_alike {fs fs' : List FilterSpec} (hfs : List.Forall₂ FilterSpec.Alike fs fs')
    (h : c.Alike c') (start : ℕ) (hd : (fs.zipIdx start).foldlM (collect entity) c = .ok d)
    (hd' : (fs'.zipIdx start).foldlM (collect entity) c' = .ok d') : d.Alike d' := by
  induction hfs generalizing c c' start with
  | nil =>
      obtain rfl := Except.ok.inj hd
      obtain rfl := Except.ok.inj hd'
      exact h
  | @cons f f' fs fs' hf _ ih =>
      rw [List.zipIdx_cons, List.foldlM_cons] at hd hd'
      obtain ⟨b, hb, hd⟩ := exists_of_bind_eq_ok hd
      obtain ⟨b', hb', hd'⟩ := exists_of_bind_eq_ok hd'
      exact ih ((collect_ok hb).alike h hf (collect_ok hb')) _ hd hd'

end Alike

section Compile

variable {schema : Schema} {spec spec' : QuerySpec} {s s' : Statement} {params params' : Params}

/-- What a compiled statement is made of. -/
theorem compileQuery_ok (h : compileQuery schema spec = .ok (s, params)) :
    supported spec.entity spec.metric = true ∧
      ∃ c, spec.filters.zipIdx.foldlM (collect spec.entity) Collected.start = .ok c ∧
        s = ⟨schema.mysql, spec.entity, spec.metric, c.base, c.agg, c.rank, c.bracketFilter,
          c.fullClearCategory.truth, c.firstClearEachCategory, spec.order⟩ ∧
        params = Function.update (Function.update c.params "limit" (some (.int spec.limit)))
          "full_clear_category" (some c.fullClearCategory) := by
  obtain ⟨-, -, h⟩ := exists_of_bind_eq_ok h
  dsimp only at h
  split at h
  · cases h
  · next hsupported =>
      obtain ⟨c, hc, h⟩ := exists_of_bind_eq_ok h
      obtain ⟨rfl, rfl⟩ := Prod.mk.inj (Except.ok.inj h)
      exact ⟨Bool.eq_true_of_not_eq_false hsupported, c, hc, rfl, rfl⟩

/-- **The text does not depend on the values.** -/
theorem compileQuery_sameText (h : spec.Alike spec')
    (hs : compileQuery schema spec = .ok (s, params))
    (hs' : compileQuery schema spec' = .ok (s', params')) : s = s' := by
  obtain ⟨-, c, hc, rfl, -⟩ := compileQuery_ok hs
  obtain ⟨-, c', hc', rfl, -⟩ := compileQuery_ok hs'
  rw [← h.entity] at hc'
  have hcollected := foldlM_collect_alike h.filters
    ⟨rfl, rfl, rfl, rfl, rfl, rfl⟩ 0 hc hc'
  rw [h.entity, h.metric, h.order, hcollected.base, hcollected.agg, hcollected.rank,
    hcollected.bracketFilter, hcollected.fullClearCategory, hcollected.firstClearEachCategory]

end Compile

/-! ### Names of parameters -/

/-- What a parameter is made for. -/
inductive Source where
  | limit
  | fullClearCategory
  | filter (idx : ℕ)
  | item (idx j : ℕ)
  deriving DecidableEq, Repr

def Source.key : Source → String
  | .limit => "limit"
  | .fullClearCategory => "full_clear_category"
  | .filter idx => paramKey idx
  | .item idx j => itemKey idx j

theorem isDigit_of_mem_repr {n : ℕ} {c : Char} (h : c ∈ n.repr.toList) : c.isDigit = true := by
  rw [Nat.toList_repr] at h
  exact Json.isDigit_of_mem h

theorem underscore_notMem {n : ℕ} : '_' ∉ n.repr.toList :=
  fun h => absurd (isDigit_of_mem_repr h) (by decide)

theorem toList_paramKey (idx : ℕ) : (paramKey idx).toList = "param_".toList ++ idx.repr.toList :=
  String.toList_append

theorem toList_itemKey (idx j : ℕ) :
    (itemKey idx j).toList = "param_".toList ++ (idx.repr.toList ++ '_' :: j.repr.toList) := by
  rw [itemKey, String.toList_append, String.toList_append, toList_paramKey, List.append_assoc,
    List.append_assoc]
  rfl

/-- Parameters of one name are made for the same. -/
theorem Source.key_injective : Function.Injective Source.key := by
  have hrepr : ∀ {m n : ℕ}, m.repr.toList = n.repr.toList → m = n :=
    fun h => Nat.repr_injective (String.toList_injective h)
  have hparam : ∀ {i i' : ℕ}, paramKey i = paramKey i' → i = i' := by
    intro i i' h
    have hlist := congrArg String.toList h
    rw [toList_paramKey, toList_paramKey] at hlist
    exact hrepr (List.append_cancel_left hlist)
  have hcross : ∀ {i i' j : ℕ}, paramKey i ≠ itemKey i' j := by
    intro i i' j h
    have hlist := congrArg String.toList h
    rw [toList_paramKey, toList_itemKey] at hlist
    have hmem : '_' ∈ i.repr.toList := by
      rw [List.append_cancel_left hlist]
      exact List.mem_append_right _ List.mem_cons_self
    exact underscore_notMem hmem
  have hitem : ∀ {i i' j j' : ℕ}, itemKey i j = itemKey i' j' → i = i' ∧ j = j' := by
    intro i i' j j' h
    have hlist := congrArg String.toList h
    rw [toList_itemKey, toList_itemKey] at hlist
    obtain ⟨hi, -, hj⟩ := (List.append_cons_inj_of_notMem underscore_notMem underscore_notMem).mp
      (List.append_cancel_left hlist)
    exact ⟨hrepr hi, hrepr hj⟩
  have hfront : ∀ {text rest : List Char}, text.take 1 ≠ ['p'] →
      text ≠ "param_".toList ++ rest := by
    rintro text rest h rfl
    exact h rfl
  have hlimit : "limit".toList.take 1 ≠ ['p'] := by decide
  have hfull : "full_clear_category".toList.take 1 ≠ ['p'] := by decide
  have hne : ∀ {key : String} {idx : ℕ}, key.toList.take 1 ≠ ['p'] →
      key ≠ paramKey idx ∧ ∀ j, key ≠ itemKey idx j := by
    intro key idx h
    exact ⟨fun heq => hfront h ((congrArg String.toList heq).trans (toList_paramKey idx)),
      fun j heq => hfront h ((congrArg String.toList heq).trans (toList_itemKey idx j))⟩
  intro a b h
  cases a <;> cases b
  case limit.limit | fullClearCategory.fullClearCategory => rfl
  case limit.fullClearCategory | fullClearCategory.limit => exact absurd h (by decide)
  case limit.filter => exact absurd h (hne hlimit).1
  case limit.item => exact absurd h ((hne hlimit).2 _)
  case fullClearCategory.filter => exact absurd h (hne hfull).1
  case fullClearCategory.item => exact absurd h ((hne hfull).2 _)
  case filter.limit => exact absurd h.symm (hne hlimit).1
  case filter.fullClearCategory => exact absurd h.symm (hne hfull).1
  case item.limit => exact absurd h.symm ((hne hlimit).2 _)
  case item.fullClearCategory => exact absurd h.symm ((hne hfull).2 _)
  case filter.filter => exact congrArg Source.filter (hparam h)
  case filter.item => exact absurd h hcross
  case item.filter => exact absurd h.symm hcross
  case item.item =>
      obtain ⟨rfl, rfl⟩ := hitem h
      rfl

/-- A name is made of word characters. -/
theorem clean_key (source : Source) : (Piece.bind source.key).Clean := by
  have hdigits : ∀ {n : ℕ}, ∀ c ∈ n.repr.toList, isWord c = true := by
    intro n c hc
    have hdigit := isDigit_of_mem_repr hc
    simp [isWord, Char.isAlphanum, hdigit]
  have hparam : ∀ c ∈ "param_".toList, isWord c = true :=
    List.all_eq_true.mp (by decide : "param_".toList.all isWord = true)
  cases source with
  | limit => exact clean_bind (by decide) (by decide)
  | fullClearCategory => exact clean_bind (by decide) (by decide)
  | filter idx =>
      refine ⟨?_, ?_⟩ <;> rw [Source.key, toList_paramKey]
      · exact List.append_ne_nil_of_left_ne_nil (by decide) _
      · exact List.forall_mem_append.mpr ⟨hparam, hdigits⟩
  | item idx j =>
      refine ⟨?_, ?_⟩ <;> rw [Source.key, toList_itemKey]
      · exact List.append_ne_nil_of_left_ne_nil (by decide) _
      · exact List.forall_mem_append.mpr ⟨hparam, List.forall_mem_append.mpr
          ⟨hdigits, List.forall_mem_cons.mpr ⟨by decide, hdigits⟩⟩⟩

/-! ### Values of parameters -/

/-- The value of a filter, or of an item of its list, as it is bound. -/
def FilterSpec.carried (f : FilterSpec) : Option ℕ → Option Value
  | none => (converted f.field f.value).toOption
  | some j => match f.value with
    | .list items => items[j]?.bind fun item => (converted f.field item).toOption
    | _ => none

/-- The value of the last filter by a cleared category. -/
def lastFullClear (filters : List FilterSpec) : Value :=
  filters.foldl (fun value f => if f.field = .fullClearCategory then f.value else value) .null

/-- The value that a parameter is made for. -/
def QuerySpec.carried (spec : QuerySpec) : Source → Option Value
  | .limit => some (.int spec.limit)
  | .fullClearCategory => some (lastFullClear spec.filters)
  | .filter idx => spec.filters[idx]?.bind fun f => f.carried none
  | .item idx j => spec.filters[idx]?.bind fun f => f.carried (some j)

/-- Is a name one of those of a filter? -/
def OfFilter (idx : ℕ) (key : String) : Prop :=
  key = Source.key (.filter idx) ∨ ∃ j, key = Source.key (.item idx j)

/-- The conditions that a filter makes, with the parameters that carry its value. -/
inductive Made (entity : Entity) (params : Params) (f : FilterSpec) (idx : ℕ) : Condition → Prop
  | single {place : Place} {left : String} {value : Value}
      (hcolumn : f.field.column entity = some (place, left))
      (hvalue : f.carried none = some value) (hparam : params (paramKey idx) = some value) :
      Made entity params f idx ⟨left, f.writtenOperator, .bind (paramKey idx)⟩
  | items {place : Place} {left : String} {items : List Value}
      (hcolumn : f.field.column entity = some (place, left)) (hitems : f.value = .list items)
      (hparams : ∀ j < items.length, ∃ value, f.carried (some j) = some value ∧
        params (itemKey idx j) = some value) :
      Made entity params f idx
        ⟨left, .isIn, .binds ((List.range items.length).map (itemKey idx))⟩
  | fullClear (hfield : f.field = .fullClearCategory) :
      Made entity params f idx ⟨"full_clear_pass", .eq, .literal "1"⟩

/-- The loop has made all conditions for filters that it has gone through. -/
structure Filled (entity : Entity) (filters : List FilterSpec) (c : Collected) : Prop where
  conditions : ∀ condition ∈ c.base ++ c.agg ++ c.rank, ∃ idx f, filters[idx]? = some f ∧
    Made entity c.params f idx condition
  bracket : ∀ key, c.bracketFilter = some key → ∃ idx f, filters[idx]? = some f ∧
    key = paramKey idx ∧ ∃ value, f.carried none = some value ∧ c.params key = some value
  fullClear : c.fullClearCategory = lastFullClear filters

section Filled

variable {entity : Entity} {c d : Collected} {f : FilterSpec} {idx : ℕ} {key : String}
  {params params' : Params}

theorem OfFilter.unique {idx' : ℕ} (h : OfFilter idx key) (h' : OfFilter idx' key) :
    idx = idx' := by
  rcases h with h | ⟨j, h⟩ <;> rcases h' with h' | ⟨j', h'⟩ <;>
    have hkey := Source.key_injective (h.symm.trans h') <;> cases hkey <;> rfl

theorem Made.mono {condition : Condition} (h : Made entity params f idx condition)
    (hagree : ∀ key, OfFilter idx key → params' key = params key) :
    Made entity params' f idx condition := by
  cases h with
  | single hcolumn hvalue hparam =>
      exact .single hcolumn hvalue ((hagree _ (.inl rfl)).trans hparam)
  | items hcolumn hitems hparams =>
      refine .items hcolumn hitems fun j hj => ?_
      obtain ⟨value, hvalue, hparam⟩ := hparams j hj
      exact ⟨value, hvalue, (hagree _ (.inr ⟨j, rfl⟩)).trans hparam⟩
  | fullClear hfield => exact .fullClear hfield

/-- The items of a list are bound to names of their filter. -/
theorem bindItems_params_of_ne (c : Collected) (values : List Value)
    (h : ∀ j, key ≠ itemKey idx j) : (c.bindItems idx values).params key = c.params key := by
  have hloop : ∀ (items : List (Value × ℕ)) (c : Collected),
      (items.foldl (fun c item => c.bind (itemKey idx item.2) item.1) c).params key =
        c.params key := by
    intro items
    induction items with
    | nil => exact fun _ => rfl
    | cons item items ih =>
        intro c
        rw [List.foldl_cons, ih]
        exact Function.update_of_ne (h item.2) ..
  exact hloop _ c

/-- Every item has its own name. -/
theorem bindItems_params_self (c : Collected) {values : List Value} {j : ℕ} {value : Value}
    (h : values[j]? = some value) :
    (c.bindItems idx values).params (itemKey idx j) = some value := by
  induction values using List.reverseRecOn generalizing j with
  | nil => cases h
  | append_singleton values last ih =>
      have hstep : c.bindItems idx (values ++ [last]) =
          (c.bindItems idx values).bind (itemKey idx values.length) last := by
        rw [Collected.bindItems, List.zipIdx_append, List.foldl_append, Nat.zero_add]
        rfl
      rw [hstep]
      by_cases hj : j = values.length
      · subst hj
        rw [List.getElem?_concat_length] at h
        exact (Function.update_self ..).trans h
      · have hne : itemKey idx j ≠ itemKey idx values.length := fun heq =>
          hj (Source.item.inj (Source.key_injective
            (show Source.key (.item idx j) = Source.key (.item idx values.length) from heq))).2
        refine (Function.update_of_ne hne ..).trans (ih ?_)
        obtain ⟨hlt, -⟩ := List.getElem?_eq_some_iff.mp h
        rw [List.length_append, List.length_singleton] at hlt
        rwa [List.getElem?_append_left (by omega)] at h

/-- A round binds the names of its own filter. -/
theorem Round.params_eq (h : Round entity c f idx d) {idx' : ℕ} (hidx : idx' ≠ idx)
    (hkey : OfFilter idx' key) : d.params key = c.params key := by
  have hparam : key ≠ paramKey idx := fun heq => hidx (hkey.unique (.inl heq))
  have hitem : ∀ j, key ≠ itemKey idx j := fun j heq => hidx (hkey.unique (.inr ⟨j, heq⟩))
  have hadd : ∀ (c : Collected) place condition, (c.add place condition).params = c.params := by
    intro c place condition
    cases place <;> rfl
  cases h with
  | single => rw [hadd]; exact Function.update_of_ne hparam ..
  | items => rw [hadd]; exact bindItems_params_of_ne c _ hitem
  | bracket | fullClear => exact Function.update_of_ne hparam ..
  | firstClear => rfl

/-- The conditions of a round are those before it, and one for its filter. -/
theorem Round.conditions (h : Round entity c f idx d) {condition : Condition}
    (hmem : condition ∈ d.base ++ d.agg ++ d.rank) :
    condition ∈ c.base ++ c.agg ++ c.rank ∨ Made entity d.params f idx condition := by
  have hadd : ∀ (c : Collected) place added,
      condition ∈ (c.add place added).base ++ (c.add place added).agg ++ (c.add place added).rank →
        condition ∈ c.base ++ c.agg ++ c.rank ∨ condition = added := by
    intro c place added hmem
    cases place <;> simp only [Collected.add, List.mem_append, List.mem_singleton] at hmem ⊢ <;>
      tauto
  have hparams : ∀ (c : Collected) place added, (c.add place added).params = c.params := by
    intro c place added
    cases place <;> rfl
  cases h with
  | @single place left value hcolumn _ hvalue =>
      rcases hadd _ _ _ hmem with hmem | rfl
      · exact .inl hmem
      · refine .inr (.single hcolumn (?_ : f.carried none = some value) ?_)
        · rw [FilterSpec.carried, hvalue]
          rfl
        · rw [hparams]
          exact Function.update_self ..
  | @items place left items values hcolumn _ hitems hvalues =>
      rcases hadd _ _ _ hmem with hmem | rfl
      · rw [bindItems_eq] at hmem
        exact .inl hmem
      · refine .inr (.items hcolumn hitems fun j hj => ?_)
        obtain ⟨value, hvalue, hconverted⟩ := getElem?_of_mapM_eq_ok hvalues hj
        refine ⟨value, ?_, ?_⟩
        · rw [FilterSpec.carried, hitems]
          simp only [List.getElem?_eq_getElem hj, Option.bind_some, hconverted]
          rfl
        · rw [hparams]
          exact bindItems_params_self c hvalue
  | bracket => exact .inl hmem
  | fullClear hfield =>
      simp only [List.mem_append, List.mem_singleton] at hmem ⊢
      rcases hmem with (hmem | hmem | rfl) | hmem
      · exact .inl (.inl (.inl hmem))
      · exact .inl (.inl (.inr hmem))
      · exact .inr (.fullClear hfield)
      · exact .inl (.inr hmem)
  | firstClear => exact .inl hmem

/-- One round fills in its filter. -/
theorem Filled.step {filters : List FilterSpec} (h : Filled entity filters c)
    (hround : Round entity c f filters.length d) : Filled entity (filters ++ [f]) d := by
  have hold : ∀ {idx : ℕ} {f' : FilterSpec}, filters[idx]? = some f' →
      (filters ++ [f])[idx]? = some f' ∧ ∀ key, OfFilter idx key → d.params key = c.params key := by
    intro idx f' hf'
    obtain ⟨hlt, -⟩ := List.getElem?_eq_some_iff.mp hf'
    refine ⟨by rwa [List.getElem?_append_left hlt], fun key hkey => ?_⟩
    exact hround.params_eq (Nat.ne_of_lt hlt) hkey
  have hnew : (filters ++ [f])[filters.length]? = some f := List.getElem?_concat_length
  refine ⟨fun condition hmem => ?_, fun key hkey => ?_, ?_⟩
  · rcases hround.conditions hmem with hmem | hmade
    · obtain ⟨idx, f', hf', hmade⟩ := h.conditions condition hmem
      exact ⟨idx, f', (hold hf').1, hmade.mono (hold hf').2⟩
    · exact ⟨filters.length, f, hnew, hmade⟩
  · have hkept : c.bracketFilter = some key → ∃ idx f', (filters ++ [f])[idx]? = some f' ∧
        key = paramKey idx ∧ ∃ value, f'.carried none = some value ∧
          d.params key = some value := by
      intro hkey
      obtain ⟨idx, f', hf', hname, value, hvalue, hparam⟩ := h.bracket key hkey
      exact ⟨idx, f', (hold hf').1, hname, value, hvalue,
        ((hold hf').2 key (.inl hname)).trans hparam⟩
    have hadd : ∀ (c : Collected) place added,
        (c.add place added).bracketFilter = c.bracketFilter := by
      intro c place added
      cases place <;> rfl
    cases hround with
    | single =>
        rw [hadd] at hkey
        exact hkept hkey
    | items =>
        rw [hadd, bindItems_eq] at hkey
        exact hkept hkey
    | @bracket value hfield hvalue =>
        obtain rfl := Option.some.inj hkey
        refine ⟨filters.length, f, hnew, rfl, value, ?_, Function.update_self ..⟩
        rw [FilterSpec.carried, hvalue]
        rfl
    | fullClear | firstClear => exact hkept hkey
  · have hlast : lastFullClear (filters ++ [f]) =
        if f.field = .fullClearCategory then f.value else lastFullClear filters := by
      rw [lastFullClear, List.foldl_concat]
      rfl
    have hcolumn : ∀ {place left}, f.field.column entity = some (place, left) →
        f.field ≠ .fullClearCategory := by
      intro place left hcolumn heq
      rw [heq] at hcolumn
      cases hcolumn
    have hadd : ∀ (c : Collected) place added,
        (c.add place added).fullClearCategory = c.fullClearCategory := by
      intro c place added
      cases place <;> rfl
    rw [hlast]
    cases hround with
    | single hfield => rw [if_neg (hcolumn hfield), hadd]; exact h.fullClear
    | items hfield => rw [if_neg (hcolumn hfield), hadd, bindItems_eq]; exact h.fullClear
    | bracket hfield | firstClear hfield =>
        rw [if_neg (by rw [hfield]; decide)]
        exact h.fullClear
    | fullClear hfield => rw [if_pos hfield]

/-- The whole loop fills in its filters. -/
theorem filled_of_foldlM {filters : List FilterSpec}
    (h : filters.zipIdx.foldlM (collect entity) Collected.start = .ok c) :
    Filled entity filters c := by
  induction filters using List.reverseRecOn generalizing c with
  | nil =>
      obtain rfl := Except.ok.inj h
      exact ⟨nofun, nofun, rfl⟩
  | append_singleton filters f ih =>
      rw [List.zipIdx_append, List.foldlM_append] at h
      obtain ⟨b, hb, h⟩ := exists_of_bind_eq_ok h
      rw [Nat.zero_add, List.zipIdx_cons, List.foldlM_cons] at h
      obtain ⟨d, hd, h⟩ := exists_of_bind_eq_ok h
      obtain rfl := Except.ok.inj h
      exact (ih hb).step (collect_ok hd)

end Filled

/-! ### The text -/

section Sound

variable {entity : Entity} {params : Params} {f : FilterSpec} {idx : ℕ}

theorem clean_append {a b : String} (ha : (Piece.sql a).Clean) (hb : (Piece.sql b).Clean) :
    (Piece.sql (a ++ b)).Clean := by
  change ':' ∉ (a ++ b).toList
  rw [String.toList_append, List.mem_append, not_or]
  exact ⟨ha, hb⟩

theorem fits_append {a b key : String} (h : Fits (.sql b) (.bind key)) :
    Fits (.sql (a ++ b)) (.bind key) := by
  change (a ++ b).toList ≠ [] ∧ opens (a ++ b).toList.getLast? = true
  rw [String.toList_append, List.getLast?_append_of_ne_nil _ h.1]
  exact ⟨List.append_ne_nil_of_right_ne_nil _ h.1, h.2⟩

theorem clean_column {field : FilterField} {place : Place} {left : String}
    (h : field.column entity = some (place, left)) : (Piece.sql left).Clean := by
  cases field <;> cases h <;> first | exact clean_sql (by decide) | skip
  cases entity <;> exact clean_sql (by decide)

theorem clean_operator (operator : FilterOperator) : (Piece.sql operator.text).Clean := by
  cases operator <;> exact clean_sql (by decide)

/-- A list of parameters in brackets. -/
theorem sound_list {text : String} (hclean : (Piece.sql text).Clean)
    (hfits : ∀ key, Fits (.sql text) (.bind key)) {keys : List String}
    (hkeys : ∀ key ∈ keys, (Piece.bind key).Clean) :
    Sound (.sql text ::
      ([Piece.sql ", "].intercalate (keys.map fun key => [.bind key]) ++ [.sql ")"])) := by
  have hend : Sound [.sql ")"] := Sound.nil.sql (clean_sql (by decide))
  induction keys generalizing text with
  | nil => exact hend.sql hclean
  | cons key keys ih =>
      obtain ⟨hkey, hrest⟩ := List.forall_mem_cons.mp hkeys
      cases keys with
      | nil =>
          refine Sound.bind hclean (hfits key) hkey (fun p hp key => ?_) hend
          obtain rfl := Option.some.inj hp
          exact fits_bind_sql (by decide)
      | cons next keys =>
          have hcons : [Piece.sql ", "].intercalate
              ((key :: next :: keys).map fun key => [Piece.bind key]) ++ [.sql ")"] =
              .bind key :: .sql ", " :: ([Piece.sql ", "].intercalate
                ((next :: keys).map fun key => [Piece.bind key]) ++ [.sql ")"]) := by
            simp [List.intercalate]
          rw [hcons]
          refine Sound.bind hclean (hfits key) hkey (fun p hp key => ?_)
            (ih (clean_sql (by decide)) (fun _ => fits_sql_bind (by decide)) hrest)
          obtain rfl := Option.some.inj hp
          exact fits_bind_sql (by decide)

/-- A condition that a filter has made. -/
theorem Made.sound {condition : Condition} (h : Made entity params f idx condition) :
    Sound condition.pieces := by
  cases h with
  | single hcolumn =>
      refine Sound.bind ?_ (fits_append (fits_sql_bind (by decide))) (clean_key (.filter idx))
        BeginsApart.nil .nil
      exact clean_append (clean_append (clean_append (clean_column hcolumn)
        (clean_sql (by decide))) (clean_operator _)) (clean_sql (by decide))
  | @items place left items hcolumn =>
      refine sound_list ?_ (fun key => fits_append (fits_sql_bind (by decide))) fun key hkey => ?_
      · exact clean_append (clean_append (clean_append (clean_column hcolumn)
          (clean_sql (by decide))) (clean_operator _)) (clean_sql (by decide))
      · obtain ⟨j, -, rfl⟩ := List.mem_map.mp hkey
        exact clean_key (.item idx j)
  | fullClear =>
      exact Sound.nil.sql (clean_append (clean_append (clean_append
        (clean_append (clean_sql (by decide)) (clean_sql (by decide))) (clean_operator _))
        (clean_sql (by decide))) (clean_sql (by decide)))

theorem sound_clause {keyword : String} (hkeyword : (Piece.sql (keyword ++ " ")).Clean)
    {conditions : List Condition} (h : ∀ condition ∈ conditions, Sound condition.pieces) :
    Sound (clause keyword conditions) := by
  unfold clause
  split
  · exact .nil
  · refine Sound.sql hkeyword (Sound.intercalate (clean_sql (by decide)) ?_ ?_)
    · intro p hp key
      obtain rfl := Option.some.inj hp
      exact fits_bind_sql (by decide)
    · intro part hpart
      obtain ⟨condition, hcondition, rfl⟩ := List.mem_map.mp hpart
      exact h condition hcondition

theorem sound_metricCondition (s : Statement) :
    ∀ condition ∈ metricCondition s, Sound condition.pieces := by
  intro condition hmem
  unfold metricCondition at hmem
  split at hmem
  · next column _ hmetric =>
      obtain rfl := List.mem_singleton.mp hmem
      have hcolumn : (Piece.sql column).Clean := by
        cases hm : s.metric <;> rw [hm] at hmetric <;> cases hmetric <;>
          exact clean_sql (by decide)
      exact Sound.nil.sql (clean_append (clean_append (clean_append
        (clean_append hcolumn (clean_sql (by decide))) (clean_operator _))
        (clean_sql (by decide))) (clean_sql (by decide)))
  · exact absurd hmem List.not_mem_nil

end Sound

section Pieces

variable {s : Statement}

theorem endsInSql_append (front : List Piece) {back : List Piece} (hne : back ≠ [])
    (h : EndsInSql back) : EndsInSql (front ++ back) := fun key hlast =>
  h key (by rwa [List.getLast?_append_of_ne_nil _ hne] at hlast)

theorem endsInSql_singleton (text : String) : EndsInSql [.sql text] := nofun

theorem beginsApart_cons {l : List Char} {pieces : List Piece}
    (h : (l.head?.any fun c => !(isWord c || c = ':')) = true) :
    BeginsApart (.sql (String.ofList l) :: pieces) := by
  intro p hp key
  obtain rfl := Option.some.inj hp
  exact fits_bind_sql h

theorem sound_bracketClause (h : ∀ key, s.bracketFilter = some key → (Piece.bind key).Clean) :
    Sound (bracketClause s) := by
  unfold bracketClause
  split
  · exact .nil
  · next key hkey =>
      exact Sound.bind (clean_sql (by decide)) (fits_sql_bind (by decide)) (h key hkey)
        BeginsApart.nil .nil

set_option maxRecDepth 20000 in
theorem sound_baseCtes (h : ∀ condition ∈ s.base, Sound condition.pieces) :
    Sound (baseCtes s) := by
  have htime : (Piece.sql (solveTimeExpr s.mysql)).Clean := by
    cases s.mysql <;> exact clean_sql (by decide)
  refine Sound.append (Sound.append ?_ (sound_clause (clean_append (clean_sql (by decide))
    (clean_sql (by decide))) h) (.inl (endsInSql_append [_, _] (by simp) (endsInSql_singleton _))))
    ?_ (.inr (beginsApart_cons (by decide +kernel)))
  · exact Sound.sql (clean_sql (by decide +kernel)) (Sound.sql htime
      (Sound.sql (clean_sql (by decide +kernel)) .nil))
  · exact Sound.sql (clean_sql (by decide +kernel)) .nil

theorem clean_limit : (Piece.bind "limit").Clean := clean_key .limit

theorem clean_fullClear : (Piece.bind "full_clear_category").Clean := clean_key .fullClearCategory

set_option maxRecDepth 20000 in
theorem sound_firstClearSql (hbase : ∀ condition ∈ s.base, Sound condition.pieces)
    (hbracket : ∀ key, s.bracketFilter = some key → (Piece.bind key).Clean) :
    Sound (firstClearSql s) := by
  have hend : Sound [.sql "\n"] := Sound.nil.sql (clean_sql (by decide))
  refine Sound.append (Sound.append (Sound.append (Sound.append hend (sound_baseCtes hbase)
    (.inl (endsInSql_singleton _))) ?_ (.inr (beginsApart_cons (by decide +kernel))))
    (sound_bracketClause hbracket) (.inl (endsInSql_append _ (by simp) (endsInSql_singleton _))))
    ?_ (.inr (beginsApart_cons (by decide +kernel)))
  · exact Sound.sql (clean_sql (by decide +kernel)) .nil
  · exact Sound.bind (clean_sql (by decide +kernel)) (fits_sql_bind (by decide +kernel))
      clean_limit (beginsApart_cons (by decide)) hend

set_option maxRecDepth 20000 in
theorem sound_teamSql (hbase : ∀ condition ∈ s.base, Sound condition.pieces)
    (hfinal : ∀ condition ∈ finalConditions s, Sound condition.pieces)
    (hbracket : ∀ key, s.bracketFilter = some key → (Piece.bind key).Clean) :
    Sound (teamSql s) := by
  have hend : Sound [.sql "\n"] := Sound.nil.sql (clean_sql (by decide))
  have hrank : (Piece.sql (rankOrderExpr s)).Clean := by
    unfold rankOrderExpr
    split
    · exact clean_sql (by decide +kernel)
    · split <;> exact clean_sql (by decide +kernel)
  have hmetric : (Piece.sql ((teamMetric s.metric).getD "")).Clean := by
    cases s.metric <;> exact clean_sql (by decide)
  refine Sound.append (Sound.append (Sound.append (Sound.append (Sound.append (Sound.append hend
    (sound_baseCtes hbase) (.inl (endsInSql_singleton _))) ?_
    (.inr (beginsApart_cons (by decide +kernel)))) (sound_bracketClause hbracket)
    (.inl (endsInSql_append _ (by simp) ?_))) ?_ (.inr (beginsApart_cons (by decide +kernel))))
    (sound_clause (clean_append (clean_sql (by decide)) (clean_sql (by decide))) hfinal)
    (.inl (endsInSql_append _ (by simp) ?_))) ?_ (.inr (beginsApart_cons (by decide)))
  · have hbind : ∀ {l : List Char} {pieces : List Piece},
        ((l.all fun c => c ≠ ':') = true) → l ≠ [] ∧ opens l.getLast? = true →
        BeginsApart pieces → Sound pieces →
          Sound (.sql (String.ofList l) :: .bind "full_clear_category" :: pieces) :=
      fun hclean hopens hapart h =>
        Sound.bind (clean_sql hclean) (fits_sql_bind hopens) clean_fullClear hapart h
    refine hbind (by decide +kernel) (by decide +kernel) (beginsApart_cons (by decide +kernel)) ?_
    refine hbind (by decide +kernel) (by decide +kernel) (beginsApart_cons (by decide +kernel)) ?_
    refine hbind (by decide +kernel) (by decide +kernel) (beginsApart_cons (by decide +kernel)) ?_
    refine hbind (by decide +kernel) (by decide +kernel) (beginsApart_cons (by decide +kernel)) ?_
    refine hbind (by decide +kernel) (by decide +kernel) (beginsApart_cons (by decide +kernel)) ?_
    exact Sound.sql (clean_sql (by decide +kernel)) .nil
  · simp [EndsInSql]
  · refine Sound.bind (clean_sql (by decide +kernel)) (fits_sql_bind (by decide +kernel))
      clean_fullClear (beginsApart_cons (by decide +kernel)) ?_
    exact Sound.sql (clean_sql (by decide +kernel)) (Sound.sql hrank
      (Sound.sql (clean_sql (by decide +kernel)) (Sound.sql hmetric
        (Sound.sql (clean_sql (by decide +kernel)) .nil))))
  · simp [EndsInSql]
  · refine Sound.sql (clean_sql (by decide)) (Sound.sql (clean_sql (by decide +kernel)) ?_)
    exact Sound.bind (clean_sql (by decide)) (fits_sql_bind (by decide)) clean_limit
      (beginsApart_cons (by decide)) hend

set_option maxRecDepth 20000 in
theorem sound_solveSql (hbase : ∀ condition ∈ s.base, Sound condition.pieces)
    (hfinal : ∀ condition ∈ finalConditions s, Sound condition.pieces)
    (hbracket : ∀ key, s.bracketFilter = some key → (Piece.bind key).Clean) :
    Sound (solveSql s) := by
  have hend : Sound [.sql "\n"] := Sound.nil.sql (clean_sql (by decide))
  have hmetric : (Piece.sql (solveMetric s.metric)).Clean := by
    cases s.metric <;> exact clean_sql (by decide +kernel)
  have hkeyword :
      (Piece.sql ((if s.bracketFilter.isSome then "AND" else "WHERE") ++ " ")).Clean := by
    refine clean_append ?_ (clean_sql (by decide))
    split <;> exact clean_sql (by decide)
  have horder : (Piece.sql (orderClause s.order)).Clean := by
    unfold orderClause
    split
    · exact clean_sql (by decide +kernel)
    · next field _ =>
        refine clean_append (clean_append (clean_append (clean_sql (by decide)) ?_) ?_)
          (clean_sql (by decide))
        · cases field <;> exact clean_sql (by decide)
        · split <;> exact clean_sql (by decide)
  refine Sound.append (Sound.append (Sound.append (Sound.append (Sound.append (Sound.append hend
    (sound_baseCtes hbase) (.inl (endsInSql_singleton _))) ?_
    (.inr (beginsApart_cons (by decide +kernel)))) (sound_bracketClause hbracket)
    (.inl (endsInSql_append _ (by simp) ?_))) hend (.inr (beginsApart_cons (by decide))))
    (sound_clause hkeyword hfinal) (.inl (endsInSql_append _ (by simp) (endsInSql_singleton _))))
    ?_ (.inr (beginsApart_cons (by decide)))
  · exact Sound.sql (clean_sql (by decide +kernel)) (Sound.sql hmetric
      (Sound.sql (clean_sql (by decide +kernel)) .nil))
  · simp [EndsInSql]
  · refine Sound.sql (clean_sql (by decide)) (Sound.sql horder ?_)
    exact Sound.bind (clean_sql (by decide)) (fits_sql_bind (by decide)) clean_limit
      (beginsApart_cons (by decide)) hend

end Pieces

/-! ### Placeholders -/

section Placeholders

theorem mem_intercalate {α : Type} {x : α} {sep : List α} {parts : List (List α)}
    (h : x ∈ sep.intercalate parts) : x ∈ sep ∨ ∃ part ∈ parts, x ∈ part := by
  rw [List.intercalate, List.mem_flatten] at h
  obtain ⟨part, hpart, hx⟩ := h
  induction parts with
  | nil => cases hpart
  | cons first rest ih =>
      cases rest with
      | nil =>
          obtain rfl := List.mem_singleton.mp hpart
          exact .inr ⟨part, List.mem_cons_self, hx⟩
      | cons next rest =>
          rw [List.intersperse_cons_cons, List.mem_cons, List.mem_cons] at hpart
          rcases hpart with rfl | rfl | hpart
          · exact .inr ⟨part, List.mem_cons_self, hx⟩
          · exact .inl hx
          · exact (ih hpart).imp_right fun ⟨part, hmem, hx⟩ =>
              ⟨part, List.mem_cons_of_mem _ hmem, hx⟩

variable {s : Statement} {key : String}

theorem bind_mem_clause {keyword : String} {conditions : List Condition}
    (h : Piece.bind key ∈ clause keyword conditions) :
    ∃ condition ∈ conditions, Piece.bind key ∈ condition.pieces := by
  unfold clause at h
  split at h
  · cases h
  · rcases List.mem_cons.mp h with h | h
    · cases h
    · rcases mem_intercalate h with h | ⟨part, hpart, h⟩
      · cases List.mem_singleton.mp h
      · obtain ⟨condition, hcondition, rfl⟩ := List.mem_map.mp hpart
        exact ⟨condition, hcondition, h⟩

theorem bind_mem_bracketClause (h : Piece.bind key ∈ bracketClause s) :
    s.bracketFilter = some key := by
  unfold bracketClause at h
  split at h
  · cases h
  · next key' hkey =>
      rcases List.mem_cons.mp h with h | h
      · cases h
      · obtain rfl := Piece.bind.inj (List.mem_singleton.mp h)
        exact hkey

/-- The parameters of a text. -/
theorem bind_mem_pieces (h : Piece.bind key ∈ s.pieces) :
    key = "limit" ∨ key = "full_clear_category" ∨ s.bracketFilter = some key ∨
      ∃ condition ∈ s.base ++ s.agg ++ s.rank, Piece.bind key ∈ condition.pieces := by
  have hbase : Piece.bind key ∈ baseCtes s →
      ∃ condition ∈ s.base ++ s.agg ++ s.rank, Piece.bind key ∈ condition.pieces := by
    intro h
    have hmem : Piece.bind key ∈ clause "WHERE" s.base := by
      simpa only [baseCtes, List.mem_append, List.mem_cons, List.not_mem_nil, or_false, false_or,
        reduceCtorEq] using h
    obtain ⟨condition, hcondition, h⟩ := bind_mem_clause hmem
    exact ⟨condition, List.mem_append_left _ (List.mem_append_left _ hcondition), h⟩
  have hfinal : ∀ {keyword}, Piece.bind key ∈ clause keyword (finalConditions s) →
      ∃ condition ∈ s.base ++ s.agg ++ s.rank, Piece.bind key ∈ condition.pieces := by
    intro keyword h
    obtain ⟨condition, hcondition, h⟩ := bind_mem_clause h
    rw [finalConditions, List.mem_append, List.mem_append] at hcondition
    rcases hcondition with (hrank | hagg) | hmetric
    · exact ⟨condition, List.mem_append_right _ hrank, h⟩
    · exact ⟨condition, List.mem_append_left _ (List.mem_append_right _ hagg), h⟩
    · unfold metricCondition at hmetric
      split at hmetric
      · obtain rfl := List.mem_singleton.mp hmetric
        cases List.mem_singleton.mp h
      · cases hmetric
  unfold Statement.pieces at h
  split at h
  · simp only [solveSql, List.mem_append, List.mem_cons, List.not_mem_nil, or_false, false_or,
      reduceCtorEq, Piece.bind.injEq] at h
    rcases h with (((h | h) | h) | h)
    · exact .inr (.inr (.inr (hbase h)))
    · exact .inr (.inr (.inl (bind_mem_bracketClause h)))
    · exact .inr (.inr (.inr (hfinal h)))
    · exact .inl h
  · split at h
    · simp only [firstClearSql, List.mem_append, List.mem_cons, List.not_mem_nil, or_false,
        false_or, reduceCtorEq, Piece.bind.injEq] at h
      rcases h with ((h | h) | h)
      · exact .inr (.inr (.inr (hbase h)))
      · exact .inr (.inr (.inl (bind_mem_bracketClause h)))
      · exact .inl h
    · simp only [teamSql, List.mem_append, List.mem_cons, List.not_mem_nil, or_false,
        false_or, reduceCtorEq, Piece.bind.injEq, or_self] at h
      rcases h with (((((h | h) | h) | h) | h) | h)
      · exact .inr (.inr (.inr (hbase h)))
      · exact .inr (.inl h)
      · exact .inr (.inr (.inl (bind_mem_bracketClause h)))
      · exact .inr (.inl h)
      · exact .inr (.inr (.inr (hfinal h)))
      · exact .inl h

/-- The parameters of a condition carry the values of its filter. -/
theorem Made.bound {entity : Entity} {params : Params} {f : FilterSpec} {idx : ℕ}
    {condition : Condition} (h : Made entity params f idx condition)
    (hkey : Piece.bind key ∈ condition.pieces) :
    ∃ item : Option ℕ, key = Source.key (item.elim (.filter idx) (.item idx)) ∧
      ∃ value, f.carried item = some value ∧ params key = some value := by
  cases h with
  | @single place left value hcolumn hvalue hparam =>
      simp only [Condition.pieces, List.mem_cons, List.not_mem_nil, or_false, reduceCtorEq,
        false_or, Piece.bind.injEq] at hkey
      subst hkey
      exact ⟨none, rfl, value, hvalue, hparam⟩
  | items hcolumn hitems hparams =>
      simp only [Condition.pieces, List.mem_cons, List.mem_append, List.not_mem_nil, or_false,
        reduceCtorEq, false_or] at hkey
      rcases mem_intercalate hkey with hkey | ⟨part, hpart, hkey⟩
      · cases List.mem_singleton.mp hkey
      · obtain ⟨key', hkey', rfl⟩ := List.mem_map.mp hpart
        obtain rfl := Piece.bind.inj (List.mem_singleton.mp hkey)
        obtain ⟨j, hj, rfl⟩ := List.mem_map.mp hkey'
        obtain ⟨value, hvalue, hparam⟩ := hparams j (List.mem_range.mp hj)
        exact ⟨some j, rfl, value, hvalue, hparam⟩
  | fullClear => cases List.mem_singleton.mp hkey

end Placeholders

/-! ### Compiled queries -/

section Bound

variable {schema : Schema} {spec : QuerySpec} {s : Statement} {params : Params}

/-- The conditions of a compiled statement, its text and its bracket. -/
theorem compileQuery_filled (h : compileQuery schema spec = .ok (s, params)) :
    (∀ condition ∈ s.base ++ s.agg ++ s.rank, ∃ idx f, spec.filters[idx]? = some f ∧
      Made spec.entity params f idx condition) ∧
    (∀ key, s.bracketFilter = some key → ∃ idx f, spec.filters[idx]? = some f ∧
      key = paramKey idx ∧ ∃ value, f.carried none = some value ∧ params key = some value) ∧
    params "limit" = some (.int spec.limit) ∧
    params "full_clear_category" = some (lastFullClear spec.filters) := by
  obtain ⟨-, c, hc, rfl, rfl⟩ := compileQuery_ok h
  have hfilled := filled_of_foldlM hc
  have hagree : ∀ {idx : ℕ} {key : String}, OfFilter idx key →
      Function.update (Function.update c.params "limit" (some (.int spec.limit)))
        "full_clear_category" (some c.fullClearCategory) key = c.params key := by
    intro idx key hkey
    have hne : ∀ source : Source, source = .limit ∨ source = .fullClearCategory →
        key ≠ source.key := by
      rintro source hsource rfl
      rcases hkey with hkey | ⟨j, hkey⟩ <;> have heq := Source.key_injective hkey <;>
        rcases hsource with rfl | rfl <;> cases heq
    have hlimit : key ≠ "limit" := hne .limit (.inl rfl)
    have hfull : key ≠ "full_clear_category" := hne .fullClearCategory (.inr rfl)
    rw [Function.update_of_ne hfull, Function.update_of_ne hlimit]
  refine ⟨fun condition hmem => ?_, fun key hkey => ?_, ?_, ?_⟩
  · obtain ⟨idx, f, hf, hmade⟩ := hfilled.conditions condition hmem
    exact ⟨idx, f, hf, hmade.mono fun key hkey => hagree hkey⟩
  · obtain ⟨idx, f, hf, hname, value, hvalue, hparam⟩ := hfilled.bracket key hkey
    exact ⟨idx, f, hf, hname, value, hvalue, (hagree (.inl hname)).trans hparam⟩
  · rw [Function.update_of_ne (by decide), Function.update_self]
  · rw [Function.update_self, hfilled.fullClear]

/-- The text of a compiled statement is read as it was written. -/
theorem compileQuery_sound (h : compileQuery schema spec = .ok (s, params)) : Sound s.pieces := by
  obtain ⟨hconditions, hbracket, -, -⟩ := compileQuery_filled h
  have hsound : ∀ condition ∈ s.base ++ s.agg ++ s.rank, Sound condition.pieces := by
    intro condition hmem
    obtain ⟨idx, f, -, hmade⟩ := hconditions condition hmem
    exact hmade.sound
  have hbase : ∀ condition ∈ s.base, Sound condition.pieces := fun condition hmem =>
    hsound condition (List.mem_append_left _ (List.mem_append_left _ hmem))
  have hfinal : ∀ condition ∈ finalConditions s, Sound condition.pieces := by
    intro condition hmem
    rw [finalConditions, List.mem_append, List.mem_append] at hmem
    rcases hmem with (hmem | hmem) | hmem
    · exact hsound condition (List.mem_append_right _ hmem)
    · exact hsound condition (List.mem_append_left _ (List.mem_append_right _ hmem))
    · exact sound_metricCondition s condition hmem
  have hkey : ∀ key, s.bracketFilter = some key → (Piece.bind key).Clean := by
    intro key hkey
    obtain ⟨idx, f, -, rfl, -⟩ := hbracket key hkey
    exact clean_key (.filter idx)
  unfold Statement.pieces
  split
  · exact sound_solveSql hbase hfinal hkey
  · split
    · exact sound_firstClearSql hbase hkey
    · exact sound_teamSql hbase hfinal hkey

/-- **Every parameter of the text carries the value it was made for**, and was made for that
value only. -/
theorem placeholders_bound (h : compileQuery schema spec = .ok (s, params)) {name : List Char}
    (hname : name ∈ placeholders none (text s.pieces)) :
    ∃! source : Source, source.key.toList = name ∧
      ∃ value, spec.carried source = some value ∧ params source.key = some value := by
  obtain ⟨hconditions, hbracket, hlimit, hfull⟩ := compileQuery_filled h
  rw [(compileQuery_sound h).placeholders_text, List.mem_filterMap] at hname
  obtain ⟨piece, hpiece, hkey⟩ := hname
  cases piece with
  | sql text => cases hkey
  | bind key =>
      obtain rfl := Option.some.inj hkey
      have hexists : ∃ source : Source, source.key = key ∧
          ∃ value, spec.carried source = some value ∧ params source.key = some value := by
        rcases bind_mem_pieces hpiece with rfl | rfl | hkey | ⟨condition, hmem, hkey⟩
        · exact ⟨.limit, rfl, _, rfl, hlimit⟩
        · exact ⟨.fullClearCategory, rfl, _, rfl, hfull⟩
        · obtain ⟨idx, f, hf, rfl, value, hvalue, hparam⟩ := hbracket key hkey
          exact ⟨.filter idx, rfl, value, by rw [QuerySpec.carried, hf]; exact hvalue, hparam⟩
        · obtain ⟨idx, f, hf, hmade⟩ := hconditions condition hmem
          obtain ⟨item, rfl, value, hvalue, hparam⟩ := hmade.bound hkey
          refine ⟨_, rfl, value, ?_, hparam⟩
          cases item <;> rw [Option.elim, QuerySpec.carried, hf] <;> exact hvalue
      obtain ⟨source, rfl, hcarried⟩ := hexists
      exact ⟨source, ⟨rfl, hcarried⟩, fun other hother =>
        Source.key_injective (String.toList_injective hother.1)⟩

/-- **Reward queries cannot be injected.** -/
theorem compileQuery_noInjection (h : compileQuery schema spec = .ok (s, params)) :
    (∀ spec' s' params', spec.Alike spec' → compileQuery schema spec' = .ok (s', params') →
      text s'.pieces = text s.pieces) ∧
    (∀ name ∈ placeholders none (text s.pieces), ∃! source : Source, source.key.toList = name ∧
      ∃ value, spec.carried source = some value ∧ params source.key = some value) ∧
    ∀ condition ∈ s.base ++ s.agg ++ s.rank, ∃ idx f, spec.filters[idx]? = some f ∧
      Made spec.entity params f idx condition := by
  refine ⟨fun spec' s' params' halike h' => ?_, fun name => placeholders_bound h,
    (compileQuery_filled h).1⟩
  rw [compileQuery_sameText halike h h']

end Bound

/-- A database with all columns. -/
def fullSchema : Schema where
  columns := fun _ => ["id", "team_id", "user_id", "challenge_id", "date", "type", "value",
    "category", "name", "target"]
  mysql := true

theorem list_of_isIn (l : List Value) :
    FilterOperator.isIn = .isIn → ∃ l', Value.list l = .list l' := fun _ => ⟨l, rfl⟩

theorem list_of_ge : FilterOperator.ge = .isIn → ∃ l, Value.int 2 = .list l := by
  intro h
  cases h

/-- Teams that have solved two challenges of some categories. -/
def solversOf (categories : List Value) : QuerySpec where
  rule := "top"
  entity := .team
  metric := .teamTotalScore
  filters := [⟨.category, .isIn, .list categories, list_of_isIn categories⟩,
    ⟨.solvedCount, .ge, .int 2, list_of_ge⟩]
  limit := 5
  order := ⟨none, .asc⟩

theorem solversOf_alike (text text' : String) :
    (solversOf [.str text]).Alike (solversOf [.str text']) where
  entity := rfl
  metric := rfl
  filters := by
    refine .cons ⟨rfl, rfl, ?_, by simp⟩ (.cons ⟨rfl, rfl, ?_, by simp⟩ .nil)
    · rintro l l' - hl hl'
      obtain rfl := Value.list.inj hl
      obtain rfl := Value.list.inj hl'
      rfl
    · intro l l' h
      cases h
  order := rfl

theorem compileQuery_noInjection_solversOf :
    ∃ s params s' params', compileQuery fullSchema (solversOf [.str "Web"]) = .ok (s, params) ∧
      compileQuery fullSchema (solversOf [.str "' OR 1 = 1 --"]) = .ok (s', params') ∧
      text s'.pieces = text s.pieces := by
  obtain ⟨s, params, h⟩ :
      ∃ s params, compileQuery fullSchema (solversOf [.str "Web"]) = .ok (s, params) := ⟨_, _, rfl⟩
  obtain ⟨s', params', h'⟩ :
      ∃ s params, compileQuery fullSchema (solversOf [.str "' OR 1 = 1 --"]) = .ok (s, params) :=
    ⟨_, _, rfl⟩
  exact ⟨s, params, s', params', h, h',
    (compileQuery_noInjection h).1 _ _ _ (solversOf_alike ..) h'⟩

end Fctf.Rewards
