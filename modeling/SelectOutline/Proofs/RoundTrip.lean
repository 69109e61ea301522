/-
SelectOutline.Proofs.RoundTrip — outlines as JSON and back.

A part goes round (`RoundTrips`) when reading its value gives the part
itself. All parts do, but for one: a direction is read in upper case, and
the words of the two usual directions are never read as another one. So an
outline goes round if and only if its directions are such that a reader
can have given them (`Canonical`).

A value that is read once and written again is therefore in a normal form:
reading and writing it a second time changes nothing.
-/
import SelectOutline.Outline.Encoding
import SelectOutline.Proofs.WellFormed

namespace SelectOutline

open Text

/-! ## 1. Parts of a value -/

namespace Json

/-- Reading the value of `a` gives `a`. -/
def RoundTrips {α : Type} (encode : α → Json) (decode : Json → Option α) (a : α) : Prop :=
  decode (encode a) = some a

/-- The names of the members of an object, in their order. -/
def keys : Json → List String
  | obj members => members.map Prod.fst
  | _ => []

/-- No object in the value has two members of one name. -/
inductive DistinctKeys : Json → Prop
  | null : DistinctKeys null
  | bool (value : Bool) : DistinctKeys (bool value)
  | nat (value : Nat) : DistinctKeys (nat value)
  | number (literal : String) : DistinctKeys (number literal)
  | str (value : String) : DistinctKeys (str value)
  | arr {items : List Json} (h : ∀ item ∈ items, DistinctKeys item) : DistinctKeys (arr items)
  | obj {members : List (String × Json)} (hkeys : (members.map Prod.fst).Nodup)
      (h : ∀ member ∈ members, DistinctKeys member.2) : DistinctKeys (obj members)

/-- Strings in members of different names. -/
theorem DistinctKeys.of_strings {members : List (String × Json)}
    (hkeys : (Json.obj members).keys.Nodup)
    (h : ∀ member ∈ members, ∃ value, member.2 = .str value) :
    (Json.obj members).DistinctKeys := by
  refine .obj hkeys fun member hmember => ?_
  obtain ⟨value, hvalue⟩ := h member hmember
  rw [hvalue]
  exact DistinctKeys.str value

theorem DistinctKeys.list {α : Type} {encode : α → Json} (h : ∀ a, (encode a).DistinctKeys)
    (items : List α) : (ofList encode items).DistinctKeys :=
  .arr (List.forall_mem_map.mpr fun a _ => h a)

variable {α : Type} {encode : α → Json} {decode : Json → Option α}

theorem roundTrips_text (text : Text) : RoundTrips ofText text? text := by
  simp [RoundTrips, ofText, text?]

/-- A list goes round if and only if its items do. -/
theorem roundTrips_list_iff {items : List α} :
    RoundTrips (ofList encode) (list? decode) items ↔
      ∀ item ∈ items, RoundTrips encode decode item := by
  simp only [RoundTrips, ofList, list?]
  induction items with
  | nil => simp
  | cons item items ih =>
    simp only [List.map_cons, List.mapM_cons, List.forall_mem_cons, ← ih]
    cases decode (encode item) with
    | none => simp
    | some read => cases (items.map encode).mapM decode <;> simp

theorem roundTrips_uint64 (value : UInt64) :
    RoundTrips (fun value => nat value.toNat) uint64? value := by
  simp [RoundTrips, uint64?, UInt64.toNat_lt_size]

theorem roundTrips_bool (value : Bool) : RoundTrips bool bool? value := rfl

/-- A required member goes round if its value does. -/
theorem required_eq {json : Json} {key : String} {a : α}
    (hmember : json.member? key = some (encode a)) (h : RoundTrips encode decode a) :
    json.required key decode = some a := by
  rw [required, hmember, Option.bind_some]
  exact h

/-- An optional member that is missing or `null` is read as absent. -/
theorem optional_eq_none {json : Json} {key : String}
    (hmember : json.member? key = none ∨ json.member? key = some null) :
    json.optional key decode = some none := by
  rcases hmember with hmember | hmember <;> rw [optional, hmember]

/-- An optional member that is there is read from its value. -/
theorem optional_eq_some_iff {json : Json} {key : String} {a : α}
    (hmember : json.member? key = some (encode a)) (hnull : encode a ≠ null) :
    json.optional key decode = some (some a) ↔ RoundTrips encode decode a := by
  rw [optional, hmember]
  simp only [RoundTrips]
  cases decode (encode a) <;> simp

/-- An optional member that is written in any case, as `null` when
absent, goes round if and only if its value does. -/
theorem optional_eq_iff {json : Json} {key : String} {value : Option α}
    (hmember : json.member? key = some (ofOption encode value)) (hnull : ∀ a, encode a ≠ null) :
    json.optional key decode = some value ↔ ∀ a ∈ value, RoundTrips encode decode a := by
  cases value with
  | none => simp [optional_eq_none (Or.inr hmember)]
  | some a =>
    have hmember : json.member? key = some (encode a) := hmember
    simpa using optional_eq_some_iff hmember (hnull a)

/-- The items of a list are read one by one. -/
theorem exists_of_list?_eq_some {json : Json} {items : List α}
    (h : json.list? decode = some items) : ∀ item ∈ items, ∃ value, decode value = some item := by
  cases json with
  | arr values =>
    rw [list?] at h
    induction values generalizing items with
    | nil =>
      obtain rfl := Option.some.inj h
      exact List.forall_mem_nil _
    | cons value values ih =>
      rw [List.mapM_cons] at h
      obtain ⟨first, hfirst, h⟩ := Option.bind_eq_some_iff.mp h
      obtain ⟨others, hothers, h⟩ := Option.bind_eq_some_iff.mp h
      obtain rfl := Option.some.inj h
      exact List.forall_mem_cons.mpr ⟨⟨value, hfirst⟩, ih hothers⟩
  | _ => cases h

/-- An optional value that is not absent is read from a member. -/
theorem exists_of_optional_eq_some {json : Json} {key : String} {value : Option α}
    (h : json.optional key decode = some value) : ∀ a ∈ value, ∃ json, decode json = some a := by
  rw [optional] at h
  intro a ha
  obtain rfl := Option.mem_def.mp ha
  split at h
  · cases h
  · cases h
  · next member _ _ =>
    obtain ⟨read, hread, heq⟩ := Option.map_eq_some_iff.mp h
    obtain rfl := Option.some.inj heq
    exact ⟨member, hread⟩

end Json

/-! ## 2. Words -/

theorem Comparison.roundTrips (comparison : Comparison) :
    Json.RoundTrips toJson ofJson? comparison := by
  cases comparison <;> rfl

theorem Connective.roundTrips (connective : Connective) :
    Json.RoundTrips toJson ofJson? connective := by
  cases connective <;> rfl

theorem JoinKind.roundTrips (kind : JoinKind) : Json.RoundTrips toJson ofJson? kind := by
  cases kind <;> rfl

/-- A direction that a word can name: any other word than the two usual
ones is in upper case. -/
def Direction.Canonical : Direction → Prop
  | ascending => True
  | descending => True
  | other word => upper word = word ∧ word ≠ "ASC".toList ∧ word ≠ "DESC".toList

theorem Direction.canonical_ofText (word : Text) : (ofText word).Canonical := by
  simp only [ofText]
  split
  · trivial
  · next hasc =>
    split
    · trivial
    · next hdesc => exact ⟨upper_upper word, hasc, hdesc⟩

/-- The word for a direction names it if and only if some word does. -/
theorem Direction.ofText_toText_iff {direction : Direction} :
    ofText direction.toText = direction ↔ direction.Canonical := by
  constructor
  · intro h
    rw [← h]
    exact canonical_ofText _
  · intro h
    cases direction with
    | ascending => decide +kernel
    | descending => decide +kernel
    | other word =>
      obtain ⟨hupper, hasc, hdesc⟩ := h
      simp only [toText, ofText, hupper, if_neg hasc, if_neg hdesc]

theorem Direction.roundTrips_iff {direction : Direction} :
    Json.RoundTrips toJson ofJson? direction ↔ direction.Canonical := by
  rw [← ofText_toText_iff]
  simp [Json.RoundTrips, toJson, ofJson?, Json.ofText, Json.text?]

/-! ## 3. Clauses -/

theorem Condition.roundTrips (condition : Condition) :
    Json.RoundTrips toJson ofJson? condition := by
  have hfield : condition.toJson.required "field" Json.text? = some condition.field :=
    Json.required_eq rfl (Json.roundTrips_text _)
  have hcomparison : condition.toJson.required "operator" Comparison.ofJson? =
      some condition.comparison :=
    Json.required_eq rfl condition.comparison.roundTrips
  have hvalue : condition.toJson.required "value" Json.text? = some condition.value :=
    Json.required_eq rfl (Json.roundTrips_text _)
  have hconnective : condition.toJson.optional "connective" Connective.ofJson? =
      some condition.connective := by
    obtain ⟨field, comparison, value, connective⟩ := condition
    cases connective with
    | none => exact Json.optional_eq_none (Or.inl rfl)
    | some connective =>
      exact (Json.optional_eq_some_iff rfl (by rw [Connective.toJson]; exact Json.noConfusion)).mpr
        connective.roundTrips
  simp [Json.RoundTrips, ofJson?, hfield, hcomparison, hvalue, hconnective]

/-- The names of the members of a condition; that of the connective is left
out when there is none. -/
theorem Condition.keys_toJson (condition : Condition) :
    condition.toJson.keys = ["field", "operator", "value"] ++
      if condition.connective.isSome then ["connective"] else [] := by
  obtain ⟨field, comparison, value, connective⟩ := condition
  cases connective <;> rfl

theorem Condition.distinctKeys_toJson (condition : Condition) : condition.toJson.DistinctKeys := by
  refine .of_strings ?_ ?_
  · change condition.toJson.keys.Nodup
    rw [keys_toJson]
    generalize condition.connective.isSome = tied
    cases tied <;> decide
  · simp [Json.ofText, Comparison.toJson, Connective.toJson]

theorem JoinKeys.roundTrips (keys : JoinKeys) : Json.RoundTrips toJson ofJson? keys := by
  have hleft : keys.toJson.required "left" Json.text? = some keys.left :=
    Json.required_eq rfl (Json.roundTrips_text _)
  have hright : keys.toJson.required "right" Json.text? = some keys.right :=
    Json.required_eq rfl (Json.roundTrips_text _)
  simp [Json.RoundTrips, ofJson?, hleft, hright]

/-- The names of the members of the pair of identifiers. -/
theorem JoinKeys.keys_toJson (keys : JoinKeys) : keys.toJson.keys = ["left", "right"] := rfl

theorem JoinKeys.distinctKeys_toJson (keys : JoinKeys) : keys.toJson.DistinctKeys := by
  refine .of_strings ?_ ?_
  · change keys.toJson.keys.Nodup
    rw [keys_toJson]
    decide
  · simp [Json.ofText]

theorem Join.distinctKeys_members (join : Join) :
    ∀ member ∈ join.members, member.2.DistinctKeys :=
  List.forall_mem_cons.mpr ⟨.str _, List.forall_mem_cons.mpr ⟨.str _,
    List.forall_mem_cons.mpr ⟨join.keys.distinctKeys_toJson, List.forall_mem_nil _⟩⟩⟩

/-- A join is read from any object that has its members. -/
theorem Join.ofJson?_eq_some {join : Join} {json : Json}
    (hmembers : ∀ member ∈ join.members, json.member? member.1 = some member.2) :
    ofJson? json = some join := by
  simp only [members, List.forall_mem_cons] at hmembers
  obtain ⟨hkind, htable, hkeys, -⟩ := hmembers
  simp [ofJson?, Json.required_eq hkind join.kind.roundTrips,
    Json.required_eq htable (Json.roundTrips_text _),
    Json.required_eq hkeys join.keys.roundTrips]

/-- The names of the members of a sort key. -/
theorem SortKey.keys_toJson (key : SortKey) : key.toJson.keys = ["fieldName", "order"] := rfl

theorem SortKey.distinctKeys_toJson (key : SortKey) : key.toJson.DistinctKeys := by
  refine .of_strings ?_ ?_
  · change key.toJson.keys.Nodup
    rw [keys_toJson]
    decide
  · simp [Json.ofText, Direction.toJson]

/-- A sort key is read with a direction that a word names. -/
theorem SortKey.canonical_of_ofJson? {json : Json} {key : SortKey} (h : ofJson? json = some key) :
    key.direction.Canonical := by
  simp only [ofJson?, Option.bind_eq_bind, Option.bind_eq_some_iff] at h
  obtain ⟨field, -, direction, hdirection, h⟩ := h
  obtain rfl := Option.some.inj h
  obtain ⟨value, -, hvalue⟩ := Option.bind_eq_some_iff.mp hdirection
  obtain ⟨word, -, rfl⟩ := Option.map_eq_some_iff.mp hvalue
  exact Direction.canonical_ofText word

/-- A sort key goes round if and only if its direction does. -/
theorem SortKey.roundTrips_iff {key : SortKey} :
    Json.RoundTrips toJson ofJson? key ↔ key.direction.Canonical := by
  have hfield : key.toJson.required "fieldName" Json.text? = some key.field :=
    Json.required_eq rfl (Json.roundTrips_text _)
  have horder : key.toJson.required "order" Direction.ofJson? =
      Direction.ofJson? key.direction.toJson := rfl
  rw [← Direction.roundTrips_iff]
  simp only [Json.RoundTrips, ofJson?, hfield, horder]
  obtain ⟨field, direction⟩ := key
  cases Direction.ofJson? direction.toJson <;> simp

/-! ## 4. Outlines -/

namespace Outline

/-- An outline all of whose directions a word can name. -/
def Canonical (outline : Outline) : Prop :=
  ∀ keys ∈ outline.sortKeys, ∀ key ∈ keys, key.direction.Canonical

/-- The names of the members of an outline; those of the join are there
only with a join. -/
theorem keys_toJson (outline : Outline) :
    outline.toJson.keys = ["fields", "table", "whereClauses"] ++
      (if outline.join.isSome then ["joinType", "joinTable", "joinCondition"] else []) ++
      ["groupByFields", "hasAggregateWithoutGroupBy", "orderByFields", "limit", "isDistinct"] := by
  obtain ⟨fields, table, conditions, join, groups, ungrouped, sortKeys, limit, distinct⟩ := outline
  cases join <;> rfl

/-- The members of the join are members of the outline. -/
theorem member?_join (outline : Outline) (join : Join) (h : join ∈ outline.join) :
    ∀ member ∈ join.members, outline.toJson.member? member.1 = some member.2 := by
  obtain ⟨fields, table, conditions, _, groups, ungrouped, sortKeys, limit, distinct⟩ := outline
  obtain rfl := Option.mem_def.mp h
  simp only [Join.members, List.forall_mem_cons]
  exact ⟨rfl, rfl, rfl, List.forall_mem_nil _⟩

/-- The join is read back from among the members of the outline. -/
theorem ofJson?_join (outline : Outline) : Join.ofJson? outline.toJson = outline.join := by
  cases hjoin : outline.join with
  | none =>
    obtain ⟨fields, table, conditions, join, groups, ungrouped, sortKeys, limit, distinct⟩ := outline
    obtain rfl : join = none := hjoin
    rfl
  | some join => exact Join.ofJson?_eq_some (outline.member?_join join hjoin)

/-- The members that every outline has. -/
theorem member?_toJson (outline : Outline) :
    ∀ member ∈ [("fields", Json.ofList .ofText outline.fields),
        ("table", .ofText outline.table),
        ("whereClauses", .ofList Condition.toJson outline.conditions),
        ("groupByFields", .ofOption (.ofList .ofText) outline.groups),
        ("hasAggregateWithoutGroupBy", .bool outline.ungroupedAggregate),
        ("orderByFields", .ofOption (.ofList SortKey.toJson) outline.sortKeys),
        ("limit", .ofOption (fun limit => .nat limit.toNat) outline.limit),
        ("isDistinct", .bool outline.distinct)],
      outline.toJson.member? member.1 = some member.2 := by
  obtain ⟨fields, table, conditions, join, groups, ungrouped, sortKeys, limit, distinct⟩ := outline
  simp only [List.forall_mem_cons]
  -- Those behind the join stand behind its members, if there are any.
  cases join <;> exact ⟨rfl, rfl, rfl, rfl, rfl, rfl, rfl, rfl, List.forall_mem_nil _⟩

theorem roundTrips_sortKeys_iff {keys : List SortKey} :
    Json.RoundTrips (.ofList SortKey.toJson) (Json.list? SortKey.ofJson?) keys ↔
      ∀ key ∈ keys, key.direction.Canonical := by
  simp only [Json.roundTrips_list_iff, SortKey.roundTrips_iff]

/-- An outline goes round if and only if its directions do. -/
theorem roundTrips_iff {outline : Outline} :
    Json.RoundTrips toJson ofJson? outline ↔ outline.Canonical := by
  have hmembers := outline.member?_toJson
  simp only [List.forall_mem_cons] at hmembers
  obtain ⟨hfields, htable, hconditions, hgroups, hungrouped, hsortKeys, hlimit, hdistinct, -⟩ :=
    hmembers
  have hlist : ∀ {α : Type} (encode : α → Json) (items : List α), Json.ofList encode items ≠ .null :=
    fun encode items h => Json.noConfusion h
  have hgroups : outline.toJson.optional "groupByFields" (Json.list? Json.text?) =
      some outline.groups :=
    (Json.optional_eq_iff hgroups (hlist _)).mpr fun groups _ =>
      Json.roundTrips_list_iff.mpr fun group _ => Json.roundTrips_text group
  have hlimit : outline.toJson.optional "limit" Json.uint64? = some outline.limit :=
    (Json.optional_eq_iff hlimit fun limit h => Json.noConfusion h).mpr fun limit _ =>
      Json.roundTrips_uint64 limit
  have hsort : outline.toJson.optional "orderByFields" (Json.list? SortKey.ofJson?) =
      some outline.sortKeys ↔ outline.Canonical := by
    rw [Json.optional_eq_iff hsortKeys (hlist _)]
    simp only [roundTrips_sortKeys_iff, Canonical]
  rw [← hsort]
  simp only [Json.RoundTrips, ofJson?, outline.ofJson?_join, hgroups, hlimit,
    Json.required_eq hfields (Json.roundTrips_list_iff.mpr fun field _ => Json.roundTrips_text field),
    Json.required_eq htable (Json.roundTrips_text _),
    Json.required_eq hconditions (Json.roundTrips_list_iff.mpr fun c _ => c.roundTrips),
    Json.required_eq hungrouped (Json.roundTrips_bool _),
    Json.required_eq hdistinct (Json.roundTrips_bool _)]
  generalize outline.toJson.optional "orderByFields" (Json.list? SortKey.ofJson?) = read
  obtain ⟨fields, table, conditions, join, groups, ungrouped, sortKeys, limit, distinct⟩ := outline
  cases read <;> simp

/-- The value of an outline does not repeat the name of a member. -/
theorem distinctKeys_toJson (outline : Outline) : outline.toJson.DistinctKeys := by
  have hoption : ∀ {α : Type} {encode : α → Json}, (∀ a, (encode a).DistinctKeys) →
      ∀ value, (Json.ofOption encode value).DistinctKeys := by
    intro α encode h value
    cases value with
    | none => exact .null
    | some a => exact h a
  have htexts : ∀ texts, (Json.ofList Json.ofText texts).DistinctKeys :=
    Json.DistinctKeys.list fun _ => .str _
  refine .obj ?_ ?_
  · change outline.toJson.keys.Nodup
    rw [keys_toJson]
    generalize outline.join.isSome = joined
    cases joined <;> decide
  · have hjoin : ∀ member ∈ (outline.join.map Join.members).getD [], member.2.DistinctKeys := by
      cases outline.join with
      | none => exact List.forall_mem_nil _
      | some join => exact join.distinctKeys_members
    simp only [List.forall_mem_append, List.forall_mem_cons]
    exact ⟨⟨⟨htexts _, .str _, .list Condition.distinctKeys_toJson _, List.forall_mem_nil _⟩, hjoin⟩,
      hoption htexts _, .bool _, hoption (.list SortKey.distinctKeys_toJson) _,
      hoption (fun _ => .nat _) _, .bool _, List.forall_mem_nil _⟩

/-- An outline is read with directions that words name. -/
theorem canonical_of_ofJson? {json : Json} {outline : Outline} (h : ofJson? json = some outline) :
    outline.Canonical := by
  simp only [ofJson?, Option.bind_eq_bind, Option.bind_eq_some_iff] at h
  obtain ⟨fields, -, table, -, conditions, -, groups, -, ungrouped, -, sortKeys, hsortKeys, limit, -,
    distinct, -, h⟩ := h
  obtain rfl := Option.some.inj h
  intro keys hkeys key hkey
  obtain ⟨list, hlist⟩ := Json.exists_of_optional_eq_some hsortKeys keys hkeys
  obtain ⟨value, hvalue⟩ := Json.exists_of_list?_eq_some hlist key hkey
  exact SortKey.canonical_of_ofJson? hvalue

/-- A query is read with directions that words name. -/
theorem canonical_of_parse {policy : Policy} {text : Text} {outline : Outline}
    (h : (parse policy text).outcome = .ok outline) : outline.Canonical := by
  obtain ⟨stages, rfl⟩ := outcome_parse_eq_ok_iff.mp h
  intro keys hkeys key hkey
  have hkept := ((Sorting.wellFormed_of_detach stages.sorting_eq keys hkeys).2 key hkey).direction
  cases hdirection : key.direction with
  | ascending => trivial
  | descending => trivial
  | other word =>
    rw [hdirection] at hkept
    obtain ⟨-, -, hasc, hdesc, hupper⟩ := hkept
    exact ⟨hupper, hasc, hdesc⟩

/-- **Outlines as JSON.** The value of an outline is an object with distinct
keys, and it gives the outline back if and only if the directions are such
that words can name them. The members of the join stand among its own, those
of a condition, of the pair of identifiers and of a sort key in objects of
their own, where the connective of a condition is left out when there is
none. The outlines that a query is read as go round, and so do those that
any value is read as: however lenient the reading was, what it gives is
written and read again unchanged. -/
theorem ofJson?_toJson :
    (∀ outline : Outline, outline.toJson.DistinctKeys ∧
      outline.toJson.keys = ["fields", "table", "whereClauses"] ++
        (if outline.join.isSome then ["joinType", "joinTable", "joinCondition"] else []) ++
        ["groupByFields", "hasAggregateWithoutGroupBy", "orderByFields", "limit", "isDistinct"] ∧
      outline.toJson.member? "whereClauses" = some (.ofList Condition.toJson outline.conditions) ∧
      (∀ condition ∈ outline.conditions, condition.toJson.keys =
        ["field", "operator", "value"] ++
          if condition.connective.isSome then ["connective"] else []) ∧
      (∀ join ∈ outline.join,
        outline.toJson.member? "joinCondition" = some join.keys.toJson ∧
          join.keys.toJson.keys = ["left", "right"]) ∧
      outline.toJson.member? "orderByFields" =
        some (.ofOption (.ofList SortKey.toJson) outline.sortKeys) ∧
      (∀ keys ∈ outline.sortKeys, ∀ key ∈ keys, key.toJson.keys = ["fieldName", "order"]) ∧
      (ofJson? outline.toJson = some outline ↔ outline.Canonical)) ∧
    (∀ policy text outline, (parse policy text).outcome = .ok outline →
      outline.Canonical ∧ ofJson? outline.toJson = some outline) ∧
    ∀ json outline, ofJson? json = some outline →
      outline.Canonical ∧ ofJson? outline.toJson = some outline := by
  refine ⟨fun outline => ?_, ?_, ?_⟩
  · have hmembers := outline.member?_toJson
    simp only [List.forall_mem_cons] at hmembers
    obtain ⟨-, -, hconditions, -, -, hsortKeys, -⟩ := hmembers
    refine ⟨outline.distinctKeys_toJson, outline.keys_toJson, hconditions,
      fun condition _ => condition.keys_toJson, ?_, hsortKeys,
      fun _ _ key _ => key.keys_toJson, roundTrips_iff⟩
    intro join hjoin
    have hjoined := outline.member?_join join hjoin
    simp only [Join.members, List.forall_mem_cons] at hjoined
    exact ⟨hjoined.2.2.1, join.keys.keys_toJson⟩
  · intro policy text outline hparse
    have hcanonical := canonical_of_parse hparse
    exact ⟨hcanonical, roundTrips_iff.mpr hcanonical⟩
  · intro json outline hread
    have hcanonical := canonical_of_ofJson? hread
    exact ⟨hcanonical, roundTrips_iff.mpr hcanonical⟩

/-- A value with a name that no reader knows, without two of the optional
members, with a join that lacks its table and with a direction in lower
case, and what it is written as. -/
theorem ofJson?_toJson_lenient :
    ∃ json outline, ofJson? json = some outline ∧ ofJson? outline.toJson = some outline ∧
      json.render = "\x7b\"note\":1,\"fields\":[\"a\"],\"table\":\"t\",\"whereClauses\":[]," ++
        "\"joinType\":\"LEFT\",\"joinCondition\":null,\"hasAggregateWithoutGroupBy\":false," ++
        "\"orderByFields\":[\x7b\"fieldName\":\"a\",\"order\":\"stra\u00dfe\"\x7d]," ++
        "\"limit\":null,\"isDistinct\":true\x7d" ∧
      outline.toJson.render = "\x7b\"fields\":[\"a\"],\"table\":\"t\",\"whereClauses\":[]," ++
        "\"groupByFields\":null,\"hasAggregateWithoutGroupBy\":false," ++
        "\"orderByFields\":[\x7b\"fieldName\":\"a\",\"order\":\"STRASSE\"\x7d]," ++
        "\"limit\":null,\"isDistinct\":true\x7d" := by
  have hread : ofJson? (.obj [("note", .nat 1), ("fields", .arr [.str "a"]), ("table", .str "t"),
      ("whereClauses", .arr []), ("joinType", .str "LEFT"), ("joinCondition", .null),
      ("hasAggregateWithoutGroupBy", .bool false),
      ("orderByFields", .arr [.obj [("fieldName", .str "a"), ("order", .str "stra\u00dfe")]]),
      ("limit", .null), ("isDistinct", .bool true)]) = some
        { fields := ["a".toList]
          table := "t".toList
          conditions := []
          join := none
          groups := none
          ungroupedAggregate := false
          sortKeys := some [⟨"a".toList, .other "STRASSE".toList⟩]
          limit := none
          distinct := true } := by
    decide +kernel
  exact ⟨_, _, hread, (ofJson?_toJson.2.2 _ _ hread).2, by decide +kernel, by decide +kernel⟩

end Outline

end SelectOutline
