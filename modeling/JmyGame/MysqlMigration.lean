import Mathlib.Data.List.Basic
import JmyGame.LibMachine
import JmyGame.MysqlConfigLoader

/-! Runs of `MysqlConfigLoader` on an empty server, any of which may stop early. Whether they end in a complete
database is decided by the order of the fields: a field is added in the first run that gets to it, and what
`DESCRIBE` shows then are columns of the fields before it. -/

namespace JmyGame

/-- The primary key of a table is the field at its place. -/
def MysqlTableInfo.PrimaryKey (T : MysqlTableInfo) (primary : MysqlTableFieldInfo) : Prop :=
  0 ≤ T.primaryKeyIndex ∧ T.fieldsInfo[T.primaryKeyIndex.toNat]? = some primary ∧ primary.name = T.primaryKey

def MysqlDatabaseConfig.ValidKeys (config : MysqlDatabaseConfig) : Prop :=
  ∀ T ∈ config.tablesInfo, ∃ primary, T.PrimaryKey primary

/-- The fields of some tables, in the order in which they are added. -/
def tableFields (tables : List MysqlTableInfo) : List (MysqlTableInfo × MysqlTableFieldInfo) :=
  tables.flatMap fun T => T.others.map fun x => (T, x.1)

namespace MysqlNames

variable (N : MysqlNames) (config : MysqlDatabaseConfig)

/-- The table that is created for a name. -/
def firstTable (T : MysqlTableInfo) : Option MysqlTableInfo :=
  config.tablesInfo.find? fun U => decide (N.tableKey U.name = N.tableKey T.name)

/-- The columns of a table with the kinds of their indexes: the primary key it is created with, and some fields of
tables of its name. -/
def columnsOf (T : MysqlTableInfo) (fields : List (MysqlTableInfo × MysqlTableFieldInfo)) :
    List (Str × Option IndexKind) :=
  (N.firstTable config T).toList.map (fun U => (N.columnKey U.primaryKey, none)) ++
    (fields.filter fun y => decide (N.tableKey y.1.name = N.tableKey T.name)).map fun y =>
      (N.columnKey y.2.name, y.2.getFieldIndexType)

/-- A field that `DESCRIBE` shows among the columns before it has its own column there, with its index; any other field
has a create flag, and its index has a length. -/
structure FieldFits (columns : List (Str × Option IndexKind)) (field : MysqlTableFieldInfo) : Prop where
  shown : (∃ c ∈ columns, N.shows field.name c.1 = true) → ∃ c ∈ columns, c.1 = N.columnKey field.name ∧
    (field.getFieldIndexType ≠ none → c.2 = field.getFieldIndexType)
  hidden : (¬∃ c ∈ columns, N.shows field.name c.1 = true) → field.HasCreateFlag ∧
    (field.getFieldIndexType ≠ none → 0 ≤ field.indexLength)

/-- The primary keys have create flags and are columns of their tables, and every field fits the columns before it. -/
structure Compatible : Prop where
  flags : ∀ T ∈ config.tablesInfo, ∀ primary, T.PrimaryKey primary → primary.HasCreateFlag
  keys : ∀ T ∈ config.tablesInfo, ∃ c ∈ N.columnsOf config T (tableFields config.tablesInfo),
    c.1 = N.columnKey T.primaryKey
  fields : ∀ before T x after, tableFields config.tablesInfo = before ++ (T, x) :: after →
    N.FieldFits (N.columnsOf config T before) x

/-- `CREATE TABLE IF NOT EXISTS`. -/
def created (schema : Schema) (T : MysqlTableInfo) : Schema :=
  match schema (N.tableKey T.name) with
  | some _ => schema
  | none => Function.update schema (N.tableKey T.name) (some ⟨[N.columnKey T.primaryKey], []⟩)

end MysqlNames

/-- The database, and whether a run has returned true. -/
structure Migration where
  schema : Schema
  loaded : Bool

namespace Migration

/-- An empty server. -/
def start : Migration := ⟨fun _ => none, false⟩

/-- One more run of the loader. -/
def step (N : MysqlNames) (config : MysqlDatabaseConfig) (s : Migration) (fails : LoadPoint → Bool) :
    Option Migration :=
  (MysqlConfigLoader.load N fails config s.schema).map fun r => ⟨r.2, s.loaded || r.1⟩

/-- Where the statement that adds an index fails, the column was there before the run, or the statement that adds
the column fails, too. -/
def Clean (N : MysqlNames) (config : MysqlDatabaseConfig) (s : Migration) (fails : LoadPoint → Bool) : Prop :=
  ∀ table ∈ config.tablesInfo.zipIdx, ∀ field ∈ table.1.others, field.1.getFieldIndexType ≠ none →
    fails (.addIndex table.2 field.2) = true →
      N.HasColumn s.schema table.1.name field.1.name ∨ fails (.addColumn table.2 field.2) = true

end Migration

def migrations (N : MysqlNames) (config : MysqlDatabaseConfig) : Machine Migration (LoadPoint → Bool) :=
  ⟨Migration.step N config⟩

/-- In every clean run, the loader comes back, and the database is complete once it has returned true. -/
def Resumable (N : MysqlNames) (config : MysqlDatabaseConfig) : Prop :=
  ∀ runs, (migrations N config).Along (Migration.Clean N config) Migration.start runs →
    ∃ t, (migrations N config).run Migration.start runs = some t ∧
      (t.loaded = true → N.Complete t.schema config)

theorem tableFields_append (ts us : List MysqlTableInfo) :
    tableFields (ts ++ us) = tableFields ts ++ tableFields us := List.flatMap_append

theorem tableFields_cons (T : MysqlTableInfo) (ts : List MysqlTableInfo) :
    tableFields (T :: ts) = (T.others.map fun x => (T, x.1)) ++ tableFields ts := List.flatMap_cons

theorem mem_tableFields {ts : List MysqlTableInfo} {y : MysqlTableInfo × MysqlTableFieldInfo} :
    y ∈ tableFields ts ↔ y.1 ∈ ts ∧ ∃ j, (y.2, j) ∈ y.1.others := by
  constructor
  · intro h
    obtain ⟨T, hT, hmem⟩ := List.mem_flatMap.1 h
    obtain ⟨⟨x, j⟩, hx, rfl⟩ := List.mem_map.1 hmem
    exact ⟨hT, j, hx⟩
  · rintro ⟨hT, j, hx⟩
    exact List.mem_flatMap.2 ⟨y.1, hT, List.mem_map.2 ⟨(y.2, j), hx, rfl⟩⟩

/-- Of two places in a list, one is before the other, or they are the same. -/
theorem places_cases {α : Type} {before after before' after' : List α} {x y : α}
    (h : before ++ x :: after = before' ++ y :: after') :
    x ∈ before' ∨ (x = y ∧ before = before') ∨ y ∈ before := by
  obtain ⟨mid, rfl, heq⟩ | ⟨mid, rfl, heq⟩ := List.append_eq_append_iff.1 h
  · cases mid with
    | nil => exact .inr (.inl ⟨(List.cons.inj heq).1, (List.append_nil before).symm⟩)
    | cons z mid =>
        obtain ⟨rfl, -⟩ := List.cons.inj heq
        exact .inl List.mem_append_cons_self
  · cases mid with
    | nil => exact .inr (.inl ⟨(List.cons.inj heq).1.symm, List.append_nil before'⟩)
    | cons z mid =>
        obtain ⟨rfl, -⟩ := List.cons.inj heq
        exact .inr (.inr List.mem_append_cons_self)

namespace MysqlConfigLoader

open Loop

variable {N : MysqlNames} {fails : LoadPoint → Bool} {config : MysqlDatabaseConfig} {schema schema' : Schema}

theorem realQuery_createTable (i : ℕ) (T : MysqlTableInfo) (primary : MysqlTableFieldInfo) (flags : Str)
    (schema : Schema) :
    realQuery N fails (.createTable i) (.createTable T.name T.primaryKey primary flags T.engineType) schema =
      if fails (.createTable i) then none else some (N.created schema T, []) := by
  unfold realQuery
  refine if_congr Iff.rfl rfl ?_
  rw [MysqlNames.exec, MysqlNames.created]
  cases schema (N.tableKey T.name) <;> rfl

/-- What holds of the tables that have been created and the fields that have been added, at the end of a load. -/
theorem ends_load {U : Prop} {I : List MysqlTableInfo → List (MysqlTableInfo × MysqlTableFieldInfo) → Schema → Prop}
    {J : Schema → Prop}
    (hflags : ∀ T ∈ config.tablesInfo, ∀ primary, T.PrimaryKey primary → ¬primary.HasCreateFlag → U)
    (hcreate : ∀ ts T us primary s, config.tablesInfo = ts ++ T :: us → T.PrimaryKey primary →
      primary.HasCreateFlag → I ts (tableFields ts) s → I (ts ++ [T]) (tableFields ts) (N.created s T))
    (hfield : ∀ ts T us done x j after s, config.tablesInfo = ts ++ T :: us → (x, j) ∈ T.others →
      tableFields config.tablesInfo = done ++ (T, x) :: after → I (ts ++ [T]) done s →
      Ends U (I (ts ++ [T]) (done ++ [(T, x)])) J (addField N fails ts.length j T.name x s))
    (hstop : ∀ ts done s, (∃ point, fails point = true) ∨ ¬config.ValidKeys → I ts done s → J s)
    (hs : I [] [] schema) :
    Ends U (I config.tablesInfo (tableFields config.tablesInfo)) J (load N fails config schema) := by
  have htable : ∀ ts T us s, config.tablesInfo = ts ++ T :: us → I ts (tableFields ts) s →
      Ends U (I (ts ++ [T]) (tableFields (ts ++ [T]))) J (loadTable N fails ts.length T s) := by
    intro ts T us s hts hI
    have hT : T ∈ config.tablesInfo := hts ▸ List.mem_append_cons_self
    have hinvalid : (∀ primary, ¬T.PrimaryKey primary) → J s := fun h =>
      hstop ts _ s (.inr fun hvalid => (hvalid T hT).elim h) hI
    unfold loadTable
    by_cases hindex : (T.fieldsInfo.length : ℤ) ≤ T.primaryKeyIndex ∨ T.primaryKeyIndex < 0
    · rw [if_pos hindex]
      refine .failed (hinvalid ?_)
      rintro primary ⟨hpos, hprimary, -⟩
      have hlt := (List.getElem?_eq_some_iff.1 hprimary).1
      omega
    rw [if_neg hindex]
    cases hprimary : T.fieldsInfo[T.primaryKeyIndex.toNat]? with
    | none => exact .failed (hinvalid fun primary h => nomatch hprimary.symm.trans h.2.1)
    | some primary =>
        dsimp only
        by_cases hname : primary.name ≠ T.primaryKey
        · rw [if_pos hname]
          refine .failed (hinvalid fun primary' h => hname ?_)
          rw [Option.some.inj (hprimary.symm.trans h.2.1), h.2.2]
        rw [if_neg hname]
        have hkey : T.PrimaryKey primary := ⟨not_lt.1 fun h => hindex (.inr h), hprimary, not_not.1 hname⟩
        cases hflag : primary.getFieldCreateFlags with
        | none =>
            refine .undefined (hflags T hT primary hkey fun h => ?_)
            obtain ⟨flags, hsome⟩ := primary.exists_createFlags_iff.2 h
            exact nomatch hflag.symm.trans hsome
        | some flags =>
            rw [Option.bind_some, realQuery_createTable]
            by_cases hfails : fails (.createTable ts.length) = true
            · rw [if_pos hfails]
              exact .failed (hstop ts _ s (.inl ⟨_, hfails⟩) hI)
            rw [if_neg hfails]
            have hstart := hcreate ts T us primary s hts hkey (primary.exists_createFlags_iff.1 ⟨flags, hflag⟩) hI
            rw [tableFields_append, tableFields_cons, show tableFields [] = [] from rfl, List.append_nil]
            refine ends_whileOk (I := fun (xs : List (MysqlTableFieldInfo × ℕ)) s =>
              I (ts ++ [T]) (tableFields ts ++ xs.map fun x => (T, x.1)) s) ?_ ?_
            · intro done x rest s hothers hI
              rw [List.map_append, ← List.append_assoc]
              refine hfield ts T us _ x.1 x.2 ((rest.map fun x => (T, x.1)) ++ tableFields us) s hts
                (hothers ▸ List.mem_append_cons_self) ?_ hI
              rw [hts, tableFields_append, tableFields_cons, hothers, List.map_append, List.map_cons]
              simp only [List.append_assoc, List.cons_append]
            · rw [List.map_nil, List.append_nil]
              exact hstart
  unfold load
  rw [realQuery]
  by_cases hfails : fails .createDatabase = true
  · rw [if_pos hfails]
    exact .failed (hstop [] [] schema (.inl ⟨_, hfails⟩) hs)
  rw [if_neg hfails]
  have hall := ends_whileOk (U := U) (J := J) (s := schema) (l := config.tablesInfo.zipIdx)
    (f := fun table => loadTable N fails table.2 table.1)
    (I := fun ts s => I (ts.map Prod.fst) (tableFields (ts.map Prod.fst)) s) ?_ hs
  · rw [List.zipIdx_map_fst] at hall
    exact hall
  · intro done T rest s hzip hI
    obtain ⟨ts, us, hts, rfl, hrest⟩ := List.zipIdx_eq_append_iff.1 hzip
    obtain ⟨T', us, rfl, rfl, -⟩ := List.zipIdx_eq_cons_iff.1 hrest.symm
    rw [List.map_append, List.zipIdx_map_fst]
    rw [List.zipIdx_map_fst] at hI
    dsimp only
    rw [Nat.zero_add]
    exact htable ts T' us s hts hI

theorem mem_columnsOf {T : MysqlTableInfo} {fields : List (MysqlTableInfo × MysqlTableFieldInfo)}
    {c : Str × Option IndexKind} : c ∈ N.columnsOf config T fields ↔
      (∃ U, N.firstTable config T = some U ∧ c = (N.columnKey U.primaryKey, none)) ∨
        ∃ y ∈ fields, N.tableKey y.1.name = N.tableKey T.name ∧
          c = (N.columnKey y.2.name, y.2.getFieldIndexType) := by
  simp only [MysqlNames.columnsOf, List.mem_append, List.mem_map, Option.mem_toList, List.mem_filter,
    decide_eq_true_eq, and_assoc]
  simp only [eq_comm]

theorem firstTable_congr {T U : MysqlTableInfo} (hkey : N.tableKey T.name = N.tableKey U.name) :
    N.firstTable config T = N.firstTable config U := by
  rw [MysqlNames.firstTable, MysqlNames.firstTable, hkey]

/-- The table that is created for a name is the first one. -/
theorem firstTable_of_new {ts us : List MysqlTableInfo} {T : MysqlTableInfo} (hts : config.tablesInfo = ts ++ T :: us)
    (hnew : ∀ U ∈ ts, N.tableKey U.name ≠ N.tableKey T.name) : N.firstTable config T = some T := by
  have hnone : ts.find? (fun U => decide (N.tableKey U.name = N.tableKey T.name)) = none :=
    List.find?_eq_none.2 fun U hU => by simpa using hnew U hU
  rw [MysqlNames.firstTable, hts, List.find?_append, hnone, Option.none_or]
  exact List.find?_cons_of_pos (decide_eq_true rfl)

/-- What a field finds does not depend on how its names are written. -/
theorem shown_congr {T U : MysqlTableInfo} {x y : MysqlTableFieldInfo} (hkey : N.tableKey T.name = N.tableKey U.name)
    (hname : N.columnKey x.name = N.columnKey y.name) (h : N.Shown schema T.name x.name) :
    N.Shown schema U.name y.name := by
  obtain ⟨t, ht, c, hc, hshows⟩ := h
  exact ⟨t, hkey ▸ ht, c, hc, N.shows_congr _ _ hname ▸ hshows⟩

theorem settled_congr {T U : MysqlTableInfo} {x y : MysqlTableFieldInfo} (hkey : N.tableKey T.name = N.tableKey U.name)
    (hname : N.columnKey x.name = N.columnKey y.name)
    (hkind : y.getFieldIndexType ≠ none → x.getFieldIndexType = y.getFieldIndexType)
    (h : N.Settled schema T.name x) : N.Settled schema U.name y := by
  obtain ⟨⟨t, ht, hmem⟩, hindexes⟩ := h
  refine ⟨⟨t, hkey ▸ ht, hname ▸ hmem⟩, fun kind hsome => ?_⟩
  obtain ⟨t', ht', index, hmem', hcolumn, hk⟩ := hindexes kind ((hkind (hsome ▸ nofun)).trans hsome)
  exact ⟨t', hkey ▸ ht', index, hmem', hcolumn.trans hname, hk⟩

theorem created_extends (schema : Schema) (T : MysqlTableInfo) : Extends schema (N.created schema T) := by
  unfold MysqlNames.created
  cases ht : schema (N.tableKey T.name) with
  | some t => exact Extends.refl schema
  | none => exact extends_create ht _

theorem created_ne_none (schema : Schema) (T : MysqlTableInfo) : N.created schema T (N.tableKey T.name) ≠ none := by
  unfold MysqlNames.created
  cases ht : schema (N.tableKey T.name) with
  | some t =>
      dsimp only
      rw [ht]
      exact Option.some_ne_none t
  | none =>
      dsimp only
      rw [Function.update_self]
      exact Option.some_ne_none _

theorem Extends.ne_none {s s' : Schema} (h : Extends s s') {key : Str} (hsome : s key ≠ none) : s' key ≠ none := by
  obtain ⟨t, ht⟩ := Option.ne_none_iff_exists'.1 hsome
  obtain ⟨t', ht', -⟩ := h key t ht
  exact ht' ▸ Option.some_ne_none t'

section added

variable {T : MysqlTableInfo} {x : MysqlTableFieldInfo} {t : SchemaTable} {indexes : List SchemaIndex}

theorem added_extends (x : MysqlTableFieldInfo) (indexes : List SchemaIndex)
    (ht : schema (N.tableKey T.name) = some t) :
    Extends schema (addedColumn N schema T.name x.name t indexes) :=
  extends_update ht (List.subset_append_left _ _) (List.subset_append_left _ _)

theorem addedColumn_self : addedColumn N schema T.name x.name t indexes (N.tableKey T.name) =
    some ⟨t.columns ++ [N.columnKey x.name], t.indexes ++ indexes⟩ := Function.update_self _ _ _

/-- A field that is shown behind a new column was shown before, or the new column shows it. -/
theorem shown_added (ht : schema (N.tableKey T.name) = some t) {U : MysqlTableInfo} {z : MysqlTableFieldInfo}
    (h : N.Shown (addedColumn N schema T.name x.name t indexes) U.name z.name) :
    N.Shown schema U.name z.name ∨
      N.tableKey U.name = N.tableKey T.name ∧ N.shows z.name (N.columnKey x.name) = true := by
  obtain ⟨u, hu, c, hc, hshows⟩ := h
  by_cases hkey : N.tableKey U.name = N.tableKey T.name
  · rw [hkey, addedColumn_self] at hu
    obtain rfl := Option.some.inj hu
    obtain hold | hnew := List.mem_append.1 hc
    · exact .inl ⟨t, hkey ▸ ht, c, hold, hshows⟩
    · exact .inr ⟨hkey, List.mem_singleton.1 hnew ▸ hshows⟩
  · rw [addedColumn, Function.update_of_ne hkey] at hu
    exact .inl ⟨u, hu, c, hc, hshows⟩

/-- A field that has been added with its index. -/
theorem settled_added (hindexes : IndexesOf N x indexes) :
    N.Settled (addedColumn N schema T.name x.name t indexes) T.name x := by
  refine ⟨⟨_, addedColumn_self, List.mem_append_right _ List.mem_cons_self⟩, fun kind hkind => ?_⟩
  have hmem : (N.columnKey x.name, kind) ∈ indexes.map fun index => (index.column, index.kind) := by
    rw [hindexes, hkind]
    exact List.mem_cons_self
  obtain ⟨index, hindex, heq⟩ := List.mem_map.1 hmem
  obtain ⟨hcolumn, hk⟩ := Prod.mk.inj heq
  exact ⟨_, addedColumn_self, index, List.mem_append_right _ hindex, hcolumn, hk⟩

end added

/-- A table has the primary key that it was created with, and a field that is shown has its column and its index. -/
structure Sound (N : MysqlNames) (config : MysqlDatabaseConfig) (schema : Schema) : Prop where
  first : ∀ T U, schema (N.tableKey T.name) ≠ none → N.firstTable config T = some U →
    N.HasColumn schema T.name U.primaryKey
  shown : ∀ y ∈ tableFields config.tablesInfo, N.Shown schema y.1.name y.2.name → N.Settled schema y.1.name y.2

/-- In a compatible configuration, it is enough that a field that is shown is settled or is shown among the columns
before it: these are the columns of fields that are settled. -/
theorem shown_of_before (hconfig : N.Compatible config)
    (hfirst : ∀ T U, schema (N.tableKey T.name) ≠ none → N.firstTable config T = some U →
      N.HasColumn schema T.name U.primaryKey)
    (hshown : ∀ before T x after, tableFields config.tablesInfo = before ++ (T, x) :: after →
      N.Shown schema T.name x.name → N.Settled schema T.name x ∨
        ∃ c ∈ N.columnsOf config T before, N.shows x.name c.1 = true) :
    ∀ y ∈ tableFields config.tablesInfo, N.Shown schema y.1.name y.2.name → N.Settled schema y.1.name y.2 := by
  suffices hall : ∀ n before T x after, before.length = n →
      tableFields config.tablesInfo = before ++ (T, x) :: after →
      N.Shown schema T.name x.name → N.Settled schema T.name x by
    rintro ⟨T, x⟩ hy
    obtain ⟨before, after, heq⟩ := List.mem_iff_append.1 hy
    exact hall _ before T x after rfl heq
  intro n
  induction n using Nat.strong_induction_on with
  | _ n ih =>
  intro before T x after hlen heq hx
  obtain hsettled | hbefore := hshown before T x after heq hx
  · exact hsettled
  obtain ⟨c, hc, hname, hkind⟩ := (hconfig.fields before T x after heq).shown hbefore
  obtain ⟨U, hU, rfl⟩ | ⟨⟨U, y⟩, hy, hkey, rfl⟩ := mem_columnsOf.1 hc
  · -- its column is the primary key, which has no other index
    have hexists : schema (N.tableKey T.name) ≠ none := by
      obtain ⟨t, ht, -⟩ := hx
      exact ht ▸ Option.some_ne_none t
    obtain ⟨t, ht, hmem⟩ := hfirst T U hexists hU
    refine ⟨⟨t, ht, hname ▸ hmem⟩, fun kind hsome => ?_⟩
    exact nomatch (hkind (hsome ▸ nofun)).trans hsome
  · obtain ⟨before₁, before₂, rfl⟩ := List.mem_iff_append.1 hy
    have hlt : before₁.length < n := by
      rw [← hlen, List.length_append, List.length_cons]
      omega
    have heq' : tableFields config.tablesInfo = before₁ ++ (U, y) :: (before₂ ++ (T, x) :: after) := by
      rw [heq, List.append_assoc, List.cons_append]
    exact settled_congr hkey hname hkind
      (ih _ hlt before₁ U y _ rfl heq' (shown_congr hkey.symm hname.symm hx))

/-- The columns before a field are there when the fields before it are settled. -/
theorem Sound.shown_of_columns (h : Sound N config schema) {T : MysqlTableInfo} {x : MysqlTableFieldInfo}
    {done : List (MysqlTableInfo × MysqlTableFieldInfo)} (hT : schema (N.tableKey T.name) ≠ none)
    (hdone : ∀ y ∈ done, N.Settled schema y.1.name y.2)
    (hshows : ∃ c ∈ N.columnsOf config T done, N.shows x.name c.1 = true) : N.Shown schema T.name x.name := by
  obtain ⟨c, hc, hshows⟩ := hshows
  obtain ⟨U, hU, rfl⟩ | ⟨y, hy, hkey, rfl⟩ := mem_columnsOf.1 hc
  · obtain ⟨t, ht, hmem⟩ := h.first T U hT hU
    exact ⟨t, ht, _, hmem, hshows⟩
  · obtain ⟨⟨t, ht, hmem⟩, -⟩ := hdone y hy
    exact ⟨t, hkey ▸ ht, _, hmem, hshows⟩

theorem sound_start : Sound N config fun _ => none where
  first _ _ h := absurd rfl h
  shown _ _ := fun ⟨_, ht, _⟩ => nomatch ht

/-- A table that is created is the first one of its name, and what its primary key shows fits it. -/
theorem Sound.created (h : Sound N config schema) (hconfig : N.Compatible config) {ts us : List MysqlTableInfo}
    {T : MysqlTableInfo} (hts : config.tablesInfo = ts ++ T :: us)
    (hexist : ∀ U ∈ ts, schema (N.tableKey U.name) ≠ none) : Sound N config (N.created schema T) := by
  cases ht : schema (N.tableKey T.name) with
  | some t =>
      have hsame : N.created schema T = schema := by rw [MysqlNames.created, ht]
      rw [hsame]
      exact h
  | none =>
      have hcreated : N.created schema T =
          Function.update schema (N.tableKey T.name) (some ⟨[N.columnKey T.primaryKey], []⟩) := by
        rw [MysqlNames.created, ht]
      have hfirstTable : N.firstTable config T = some T := by
        refine firstTable_of_new hts fun U hU hkey => hexist U hU ?_
        rw [hkey, ht]
      have hext := created_extends (N := N) schema T
      have hfirst : ∀ U V, N.created schema T (N.tableKey U.name) ≠ none → N.firstTable config U = some V →
          N.HasColumn (N.created schema T) U.name V.primaryKey := by
        intro U V hsome hV
        by_cases hkey : N.tableKey U.name = N.tableKey T.name
        · rw [firstTable_congr hkey, hfirstTable] at hV
          obtain rfl := Option.some.inj hV
          have hself : N.created schema T (N.tableKey U.name) = some ⟨[N.columnKey T.primaryKey], []⟩ := by
            rw [hcreated, hkey, Function.update_self]
          exact ⟨_, hself, List.mem_cons_self⟩
        · rw [hcreated, Function.update_of_ne hkey] at hsome
          exact (h.first U V hsome hV).mono hext
      refine ⟨hfirst, shown_of_before hconfig hfirst fun before U z after heq hz => ?_⟩
      obtain ⟨u, hu, c, hc, hshows⟩ := hz
      by_cases hkey : N.tableKey U.name = N.tableKey T.name
      · rw [hcreated, hkey, Function.update_self] at hu
        obtain rfl := Option.some.inj hu
        obtain rfl := List.mem_singleton.1 hc
        exact .inr ⟨_, mem_columnsOf.2 (.inl ⟨T, (firstTable_congr hkey).trans hfirstTable, rfl⟩), hshows⟩
      · rw [hcreated, Function.update_of_ne hkey] at hu
        have hmem : (U, z) ∈ tableFields config.tablesInfo := heq ▸ List.mem_append_cons_self
        exact .inl ((h.shown (U, z) hmem ⟨u, hu, c, hc, hshows⟩).mono hext)

/-- A field that is added with its index, behind fields that are settled. -/
theorem Sound.added (h : Sound N config schema) (hconfig : N.Compatible config) {T : MysqlTableInfo}
    {x : MysqlTableFieldInfo} {done after : List (MysqlTableInfo × MysqlTableFieldInfo)} {t : SchemaTable}
    {indexes : List SchemaIndex} (heq : tableFields config.tablesInfo = done ++ (T, x) :: after)
    (hdone : ∀ y ∈ done, N.Settled schema y.1.name y.2) (ht : schema (N.tableKey T.name) = some t)
    (hindexes : IndexesOf N x indexes) : Sound N config (addedColumn N schema T.name x.name t indexes) := by
  have hext : Extends schema (addedColumn N schema T.name x.name t indexes) := added_extends x indexes ht
  have hfirst : ∀ U V, addedColumn N schema T.name x.name t indexes (N.tableKey U.name) ≠ none →
      N.firstTable config U = some V →
      N.HasColumn (addedColumn N schema T.name x.name t indexes) U.name V.primaryKey := by
    intro U V hsome hV
    have hold : schema (N.tableKey U.name) ≠ none := by
      by_cases hkey : N.tableKey U.name = N.tableKey T.name
      · rw [hkey, ht]
        exact Option.some_ne_none t
      · rwa [addedColumn, Function.update_of_ne hkey] at hsome
    exact (h.first U V hold hV).mono hext
  refine ⟨hfirst, shown_of_before hconfig hfirst fun before U z after' heq' hz => ?_⟩
  have hmem : (U, z) ∈ tableFields config.tablesInfo := heq' ▸ List.mem_append_cons_self
  obtain hold | ⟨hkey, hshows⟩ := shown_added ht hz
  · exact .inl ((h.shown (U, z) hmem hold).mono hext)
  obtain hbefore | ⟨hsame, -⟩ | hbehind := places_cases (heq.symm.trans heq')
  · exact .inr ⟨_, mem_columnsOf.2 (.inr ⟨(T, x), hbefore, hkey.symm, rfl⟩), hshows⟩
  · obtain ⟨rfl, rfl⟩ := Prod.mk.inj hsame
    exact .inl (settled_added hindexes)
  · exact .inl ((hdone (U, z) hbehind).mono hext)

/-- What a clean load of a compatible configuration keeps, when some tables have been created and some fields added. -/
structure Passed (N : MysqlNames) (config : MysqlDatabaseConfig) (old : Schema) (ts : List MysqlTableInfo)
    (done : List (MysqlTableInfo × MysqlTableFieldInfo)) (schema : Schema) : Prop where
  sound : Sound N config schema
  extends_old : Extends old schema
  tables : ∀ T ∈ ts, schema (N.tableKey T.name) ≠ none
  fields : ∀ y ∈ done, N.Settled schema y.1.name y.2

/-- One field of a clean load. -/
theorem Passed.addField {old : Schema} {ts : List MysqlTableInfo} {T : MysqlTableInfo} {x : MysqlTableFieldInfo}
    {done after : List (MysqlTableInfo × MysqlTableFieldInfo)} {i j : ℕ}
    (h : Passed N config old (ts ++ [T]) done schema) (hconfig : N.Compatible config)
    (heq : tableFields config.tablesInfo = done ++ (T, x) :: after)
    (hclean : x.getFieldIndexType ≠ none → fails (.addIndex i j) = true →
      N.HasColumn old T.name x.name ∨ fails (.addColumn i j) = true) :
    Ends False (Passed N config old (ts ++ [T]) (done ++ [(T, x)])) (fun s => Sound N config s ∧ Extends old s)
      (addField N fails i j T.name x schema) := by
  have hT := h.tables T (List.mem_append_right ts List.mem_cons_self)
  have hmem : (T, x) ∈ tableFields config.tablesInfo := heq ▸ List.mem_append_cons_self
  -- a field that is not shown fits as the first of its column
  have hhide : ¬N.Shown schema T.name x.name → x.HasCreateFlag ∧ (x.getFieldIndexType ≠ none → 0 ≤ x.indexLength) :=
    fun hhidden => (hconfig.fields done T x after heq).hidden fun hshows =>
      hhidden (h.sound.shown_of_columns hT h.fields hshows)
  have hcase := addField_case N fails i j T.name x schema
  generalize MysqlConfigLoader.addField N fails i j T.name x schema = r at hcase ⊢
  cases hcase with
  | refused _ => exact .failed ⟨h.sound, h.extends_old⟩
  | found hshown =>
      refine .ok ⟨h.sound, h.extends_old, h.tables, fun y hy => ?_⟩
      obtain hy | hy := List.mem_append.1 hy
      · exact h.fields y hy
      · obtain rfl := List.mem_singleton.1 hy
        exact h.sound.shown _ hmem hshown
  | unread hhidden hflag => exact absurd (hhide hhidden).1 hflag
  | @added t indexes ht hhidden hflag hindexes hlength =>
      have hext := added_extends x indexes ht
      refine .ok ⟨h.sound.added hconfig heq h.fields ht hindexes, h.extends_old.trans hext,
        fun U hU => Extends.ne_none hext (h.tables U hU), fun y hy => ?_⟩
      obtain hy | hy := List.mem_append.1 hy
      · exact (h.fields y hy).mono hext
      · obtain rfl := List.mem_singleton.1 hy
        exact settled_added hindexes
  | stopped ht hhidden hflag hadd hkind hindex =>
      obtain hlength | hfails := hindex
      · exact absurd ((hhide hhidden).2 hkind) (not_le.2 hlength)
      · obtain hcolumn | hcolumn := hclean hkind hfails
        · exact absurd (hcolumn.mono h.extends_old).shown hhidden
        · exact absurd (hadd.symm.trans hcolumn) Bool.false_ne_true

/-- A clean load of a compatible configuration comes back, and the database is complete if it returns true. -/
theorem Sound.load (h : Sound N config schema) (hconfig : N.Compatible config)
    (hclean : ∀ T ∈ config.tablesInfo.zipIdx, ∀ y ∈ T.1.others, y.1.getFieldIndexType ≠ none →
      fails (.addIndex T.2 y.2) = true → N.HasColumn schema T.1.name y.1.name ∨ fails (.addColumn T.2 y.2) = true) :
    Ends False (Passed N config schema config.tablesInfo (tableFields config.tablesInfo))
      (fun s => Sound N config s ∧ Extends schema s) (load N fails config schema) := by
  refine ends_load (I := Passed N config schema)
    (fun T hT primary hkey hflag => hflag (hconfig.flags T hT primary hkey)) ?_ ?_
    (fun _ _ s _ hs => ⟨hs.sound, hs.extends_old⟩) ⟨h, Extends.refl schema, nofun, nofun⟩
  · intro ts T us primary s hts _ _ hs
    have hext := created_extends (N := N) s T
    refine ⟨hs.sound.created hconfig hts hs.tables, hs.extends_old.trans hext, fun U hU => ?_,
      fun y hy => (hs.fields y hy).mono hext⟩
    obtain hU | hU := List.mem_append.1 hU
    · exact Extends.ne_none hext (hs.tables U hU)
    · obtain rfl := List.mem_singleton.1 hU
      exact created_ne_none s U
  · intro ts T us done x j after s hts hx heq hs
    refine hs.addField hconfig heq (hclean (T, ts.length) ?_ (x, j) hx)
    rw [hts, List.mk_mem_zipIdx_iff_getElem?, List.getElem?_append_right (le_refl _), Nat.sub_self]
    rfl

/-- A field is the primary key or one of the others. -/
theorem mem_fieldsInfo {T : MysqlTableInfo} {field primary : MysqlTableFieldInfo} (hprimary : T.PrimaryKey primary)
    (hfield : field ∈ T.fieldsInfo) : field = primary ∨ ∃ j, (field, j) ∈ T.others := by
  obtain ⟨hpos, hsome, -⟩ := hprimary
  obtain ⟨j, hj⟩ := List.mem_iff_getElem?.1 hfield
  by_cases hplace : (j : ℤ) = T.primaryKeyIndex
  · left
    rw [← hplace, Int.toNat_natCast, hj] at hsome
    exact Option.some.inj hsome
  · right
    refine ⟨j, List.mem_filter.2 ⟨?_, decide_eq_true hplace⟩⟩
    exact List.mk_mem_zipIdx_iff_getElem?.2 hj

theorem Passed.complete {old : Schema}
    (h : Passed N config old config.tablesInfo (tableFields config.tablesInfo) schema)
    (hkeys : config.ValidKeys) (hconfig : N.Compatible config) : N.Complete schema config := by
  intro T hT
  have hothers : ∀ x ∈ T.others, N.Settled schema T.name x.1 := fun x hx =>
    h.fields (T, x.1) (mem_tableFields.2 ⟨hT, x.2, hx⟩)
  refine ⟨fun field hfield => ?_, fun x hx => (hothers x hx).2⟩
  obtain ⟨primary, hprimary⟩ := hkeys T hT
  obtain rfl | ⟨j, hj⟩ := mem_fieldsInfo hprimary hfield
  · obtain ⟨c, hc, hname⟩ := hconfig.keys T hT
    rw [hprimary.2.2]
    obtain ⟨U, hU, rfl⟩ | ⟨y, hy, hkey, rfl⟩ := mem_columnsOf.1 hc
    · obtain ⟨t, ht, hmem⟩ := h.sound.first T U (h.tables T hT) hU
      exact ⟨t, ht, hname ▸ hmem⟩
    · obtain ⟨⟨t, ht, hmem⟩, -⟩ := h.fields y hy
      exact ⟨t, hkey ▸ ht, hname ▸ hmem⟩
  · exact (hothers (field, j) hj).1

end MysqlConfigLoader

namespace Migration

open MysqlConfigLoader

variable {N : MysqlNames} {config : MysqlDatabaseConfig}

/-- A compatible configuration is complete once a load has returned true, in every clean run. -/
theorem resumable_of_compatible (hkeys : config.ValidKeys) (hconfig : N.Compatible config) : Resumable N config := by
  have hstep : ∀ s fails, Sound N config s.schema ∧ (s.loaded = true → N.Complete s.schema config) →
      Clean N config s fails → ∃ s', (migrations N config).step s fails = some s' ∧
        Sound N config s'.schema ∧ (s'.loaded = true → N.Complete s'.schema config) := by
    rintro s fails ⟨hsound, hcomplete⟩ hclean
    have hload := hsound.load hconfig hclean
    have hstep : (migrations N config).step s fails = (load N fails config s.schema).map fun r =>
        ⟨r.2, s.loaded || r.1⟩ := rfl
    rw [hstep]
    generalize load N fails config s.schema = r at hload ⊢
    cases hload with
    | undefined h => exact h.elim
    | ok h => exact ⟨_, rfl, h.sound, fun _ => h.complete hkeys hconfig⟩
    | failed h =>
        refine ⟨_, rfl, h.1, fun hloaded => ?_⟩
        have hbefore : s.loaded = true := (Bool.or_false s.loaded).symm.trans hloaded
        exact fun T hT => (hcomplete hbefore T hT).mono h.2
  have hstart : start.loaded = true → N.Complete start.schema config := fun h => absurd h Bool.false_ne_true
  intro runs hclean
  obtain ⟨t, hrun, -, ht⟩ := Machine.exists_run_along hstep ⟨sound_start, hstart⟩ hclean
  exact ⟨t, hrun, ht⟩

end Migration

end JmyGame
