import JmyGame.MysqlMigration

/-! A field that is shown without its column or its index stays so in every run of `MysqlConfigLoader`. A configuration
that does not fit makes one in its first load, and the loads behind it return true in the end. -/

namespace JmyGame

namespace MysqlConfigLoader

open Loop

variable {N : MysqlNames} {fails : LoadPoint → Bool} {config : MysqlDatabaseConfig} {schema schema' : Schema}

/-- Every index is of a column of its table. -/
def Indexed (schema : Schema) : Prop := ∀ key t, schema key = some t → ∀ index ∈ t.indexes, index.column ∈ t.columns

/-- A field is shown and is not settled. -/
def Damaged (N : MysqlNames) (config : MysqlDatabaseConfig) (schema : Schema) : Prop :=
  ∃ y ∈ tableFields config.tablesInfo, N.Shown schema y.1.name y.2.name ∧ ¬N.Settled schema y.1.name y.2

theorem indexed_start : Indexed fun _ => none := fun _ _ h => nomatch h

theorem Shown.mono {table column : Str} (h : N.Shown schema table column) (hext : Extends schema schema') :
    N.Shown schema' table column := by
  obtain ⟨t, ht, c, hc, hshows⟩ := h
  obtain ⟨t', ht', hcolumns, -⟩ := hext _ t ht
  exact ⟨t', ht', c, hcolumns hc, hshows⟩

theorem Indexed.created (h : Indexed schema) (T : MysqlTableInfo) : Indexed (N.created schema T) := by
  unfold MysqlNames.created
  cases ht : schema (N.tableKey T.name) with
  | some t => exact h
  | none =>
      intro key t hsome
      dsimp only at hsome
      by_cases hkey : key = N.tableKey T.name
      · rw [hkey, Function.update_self] at hsome
        obtain rfl := Option.some.inj hsome
        exact nofun
      · rw [Function.update_of_ne hkey] at hsome
        exact h key t hsome

theorem Damaged.created (h : Damaged N config schema) (T : MysqlTableInfo) :
    Damaged N config (N.created schema T) := by
  obtain ⟨y, hy, hshown, hsettled⟩ := h
  refine ⟨y, hy, Shown.mono hshown (created_extends schema T), ?_⟩
  -- the table of the field is there, so it is not created
  have hsame : N.created schema T (N.tableKey y.1.name) = schema (N.tableKey y.1.name) := by
    unfold MysqlNames.created
    cases ht : schema (N.tableKey T.name) with
    | some t => rfl
    | none =>
        refine Function.update_of_ne (fun hkey => ?_) _ _
        obtain ⟨t, hsome, -⟩ := hshown
        rw [hkey, ht] at hsome
        cases hsome
  rintro ⟨⟨t, ht, hmem⟩, hindexes⟩
  refine hsettled ⟨⟨t, hsame ▸ ht, hmem⟩, fun kind hkind => ?_⟩
  obtain ⟨u, hu, hindex⟩ := hindexes kind hkind
  exact ⟨u, hsame ▸ hu, hindex⟩

section added

variable {T : MysqlTableInfo} {x : MysqlTableFieldInfo} {t : SchemaTable} {indexes : List SchemaIndex}

theorem IndexesOf.column (h : IndexesOf N x indexes) : ∀ index ∈ indexes, index.column = N.columnKey x.name := by
  intro index hindex
  have hmem := List.mem_map_of_mem (f := fun index : SchemaIndex => (index.column, index.kind)) hindex
  rw [h] at hmem
  obtain ⟨kind, -, heq⟩ := List.mem_map.1 hmem
  exact (Prod.mk.inj heq).1.symm

theorem IndexesOf.kind (h : IndexesOf N x indexes) :
    ∀ index ∈ indexes, some index.kind = x.getFieldIndexType := by
  intro index hindex
  have hmem := List.mem_map_of_mem (f := fun index : SchemaIndex => (index.column, index.kind)) hindex
  rw [h] at hmem
  obtain ⟨kind, hkind, heq⟩ := List.mem_map.1 hmem
  rw [← (Prod.mk.inj heq).2]
  exact (Option.mem_toList.1 hkind).symm

theorem Indexed.added (h : Indexed schema) (ht : schema (N.tableKey T.name) = some t)
    (hindexes : ∀ index ∈ indexes, index.column = N.columnKey x.name) :
    Indexed (addedColumn N schema T.name x.name t indexes) := by
  intro key u hu index hindex
  by_cases hkey : key = N.tableKey T.name
  · rw [hkey, addedColumn_self] at hu
    obtain rfl := Option.some.inj hu
    obtain hold | hnew := List.mem_append.1 hindex
    · exact List.mem_append_left _ (h _ t ht index hold)
    · exact List.mem_append_right _ (List.mem_singleton.2 (hindexes index hnew))
  · rw [addedColumn, Function.update_of_ne hkey] at hu
    exact h key u hu index hindex

/-- A column that is shown is not added again, nor an index to it. -/
theorem Damaged.added (h : Damaged N config schema) (ht : schema (N.tableKey T.name) = some t)
    (hhidden : ¬N.Shown schema T.name x.name) (hindexes : ∀ index ∈ indexes, index.column = N.columnKey x.name) :
    Damaged N config (addedColumn N schema T.name x.name t indexes) := by
  obtain ⟨⟨U, z⟩, hz, hshown, hsettled⟩ := h
  refine ⟨(U, z), hz, Shown.mono hshown (added_extends x indexes ht), ?_⟩
  dsimp only at hshown hsettled ⊢
  rintro ⟨⟨u, hu, hmem⟩, hall⟩
  by_cases hkey : N.tableKey U.name = N.tableKey T.name
  · rw [hkey, addedColumn_self] at hu
    obtain rfl := Option.some.inj hu
    have hne : N.columnKey z.name ≠ N.columnKey x.name := fun hname =>
      hhidden (shown_congr hkey hname hshown)
    have hcolumn : N.columnKey z.name ∈ t.columns :=
      (List.mem_append.1 hmem).resolve_right fun hnew => hne (List.mem_singleton.1 hnew)
    refine hsettled ⟨⟨t, hkey ▸ ht, hcolumn⟩, fun kind hkind => ?_⟩
    obtain ⟨u, hu, index, hindex, hname, hk⟩ := hall kind hkind
    rw [hkey, addedColumn_self] at hu
    obtain rfl := Option.some.inj hu
    obtain hold | hnew := List.mem_append.1 hindex
    · exact ⟨t, hkey ▸ ht, index, hold, hname, hk⟩
    · exact absurd (hname.symm.trans (hindexes index hnew)) hne
  · have hsame : addedColumn N schema T.name x.name t indexes (N.tableKey U.name) = schema (N.tableKey U.name) :=
      Function.update_of_ne hkey _ _
    refine hsettled ⟨⟨u, hsame ▸ hu, hmem⟩, fun kind hkind => ?_⟩
    obtain ⟨u', hu', hindex⟩ := hall kind hkind
    exact ⟨u', hsame ▸ hu', hindex⟩

/-- A column that is added without the index of its field. -/
theorem damaged_stopped (hwell : Indexed schema) (hx : (T, x) ∈ tableFields config.tablesInfo)
    (ht : schema (N.tableKey T.name) = some t) (hhidden : ¬N.Shown schema T.name x.name)
    (hkind : x.getFieldIndexType ≠ none) : Damaged N config (addedColumn N schema T.name x.name t []) := by
  refine ⟨(T, x), hx, ⟨_, addedColumn_self, _, List.mem_append_right _ List.mem_cons_self, N.shows_self x.name⟩, ?_⟩
  rintro ⟨-, hall⟩
  obtain ⟨kind, hsome⟩ := Option.ne_none_iff_exists'.1 hkind
  obtain ⟨u, hu, index, hindex, hname, -⟩ := hall kind hsome
  rw [addedColumn_self] at hu
  obtain rfl := Option.some.inj hu
  rw [List.append_nil] at hindex
  refine hhidden (MysqlNames.HasColumn.shown ⟨t, ht, ?_⟩)
  exact hname ▸ hwell _ t ht index hindex

end added

/-- What a load keeps of a database that is damaged. -/
theorem Damaged.load (h : Damaged N config schema) (hwell : Indexed schema) :
    Ends True (fun s => Indexed s ∧ Damaged N config s) (fun s => Indexed s ∧ Damaged N config s)
      (load N fails config schema) := by
  refine ends_load (I := fun _ _ s => Indexed s ∧ Damaged N config s) (fun _ _ _ _ _ => trivial)
    (fun _ T _ _ s _ _ _ hs => ⟨hs.1.created T, hs.2.created T⟩) ?_ (fun _ _ _ _ hs => hs) ⟨hwell, h⟩
  intro ts T us done x j after s _ _ heq hs
  have hcase := addField_case N fails ts.length j T.name x s
  generalize MysqlConfigLoader.addField N fails ts.length j T.name x s = r at hcase ⊢
  cases hcase with
  | refused _ => exact .failed hs
  | found _ => exact .ok hs
  | unread _ _ => exact .undefined trivial
  | added ht hhidden _ hindexes _ =>
      exact .ok ⟨hs.1.added ht hindexes.column, hs.2.added ht hhidden hindexes.column⟩
  | stopped ht hhidden _ _ hkind _ => exact .failed ⟨hs.1.added ht nofun, hs.2.added ht hhidden nofun⟩

theorem Damaged.not_complete (h : Damaged N config schema) : ¬N.Complete schema config := by
  obtain ⟨y, hy, -, hsettled⟩ := h
  obtain ⟨hT, j, hx⟩ := mem_tableFields.1 hy
  intro hcomplete
  obtain ⟨hcolumns, hindexes⟩ := hcomplete y.1 hT
  refine hsettled ⟨hcolumns y.2 ?_, hindexes (y.2, j) hx⟩
  have hmem := List.mk_mem_zipIdx_iff_getElem?.1 (List.mem_filter.1 hx).1
  exact List.mem_iff_getElem?.2 ⟨j, hmem⟩

/-- A load in which no statement fails and that returns false has added a column. -/
theorem ends_load_progress (hkeys : config.ValidKeys) (hfails : ∀ point, fails point = false) :
    Ends True (Extends schema) (fun s => Extends schema s ∧ ∃ y ∈ tableFields config.tablesInfo,
      ¬N.Shown schema y.1.name y.2.name ∧ N.Shown s y.1.name y.2.name) (load N fails config schema) := by
  refine Ends.mono (ends_load (I := fun ts _ s => Extends schema s ∧ ∀ T ∈ ts, s (N.tableKey T.name) ≠ none)
    (fun _ _ _ _ _ => trivial) ?_ ?_ ?_ ⟨Extends.refl schema, nofun⟩) (fun s hs => hs.1) fun s hs => hs
  · rintro ts T us primary s - - - ⟨hext, htables⟩
    have hcreated := created_extends (N := N) s T
    refine ⟨hext.trans hcreated, fun U hU => ?_⟩
    obtain hU | hU := List.mem_append.1 hU
    · exact Extends.ne_none hcreated (htables U hU)
    · obtain rfl := List.mem_singleton.1 hU
      exact created_ne_none s U
  · rintro ts T us done x j after s - - heq ⟨hext, htables⟩
    have hmem : (T, x) ∈ tableFields config.tablesInfo := heq ▸ List.mem_append_cons_self
    have hcase := addField_case N fails ts.length j T.name x s
    generalize MysqlConfigLoader.addField N fails ts.length j T.name x s = r at hcase ⊢
    cases hcase with
    | refused h =>
        obtain h | h | h := h
        · exact absurd ((hfails _).symm.trans h) Bool.false_ne_true
        · exact absurd ((hfails _).symm.trans h) Bool.false_ne_true
        · exact absurd h (htables T (List.mem_append_right ts List.mem_cons_self))
    | found _ => exact .ok ⟨hext, htables⟩
    | unread _ _ => exact .undefined trivial
    | @added t indexes ht _ _ _ _ =>
        have hadded := added_extends x indexes ht
        exact .ok ⟨hext.trans hadded, fun U hU => Extends.ne_none hadded (htables U hU)⟩
    | @stopped t ht hhidden _ _ _ _ =>
        refine .failed ⟨hext.trans (added_extends x [] ht), (T, x), hmem, fun h => hhidden (Shown.mono h hext), ?_⟩
        exact ⟨_, addedColumn_self, _, List.mem_append_right _ List.mem_cons_self, N.shows_self x.name⟩
  · rintro - - s (⟨point, hpoint⟩ | hinvalid) -
    · exact absurd ((hfails point).symm.trans hpoint) Bool.false_ne_true
    · exact absurd hkeys hinvalid

theorem columnsOf_mono {T : MysqlTableInfo} {fields : List (MysqlTableInfo × MysqlTableFieldInfo)}
    {c : Str × Option IndexKind} (h : c ∈ N.columnsOf config T fields) (y : MysqlTableInfo × MysqlTableFieldInfo) :
    c ∈ N.columnsOf config T (fields ++ [y]) := by
  obtain hfirst | ⟨z, hz, hfield⟩ := mem_columnsOf.1 h
  · exact mem_columnsOf.2 (.inl hfirst)
  · exact mem_columnsOf.2 (.inr ⟨z, List.mem_append_left _ hz, hfield⟩)

/-- What a first load has brought about: a table has the columns and indexes of the fields before, each of these is
settled and fits the columns before it. -/
structure FirstLoad (N : MysqlNames) (config : MysqlDatabaseConfig) (ts : List MysqlTableInfo)
    (done : List (MysqlTableInfo × MysqlTableFieldInfo)) (schema : Schema) : Prop where
  tables : ∀ T ∈ ts, schema (N.tableKey T.name) ≠ none
  flags : ∀ T ∈ ts, ∀ primary, T.PrimaryKey primary → primary.HasCreateFlag
  first : ∀ T U, schema (N.tableKey T.name) ≠ none → N.firstTable config T = some U →
    N.HasColumn schema T.name U.primaryKey
  columns : ∀ T t, schema (N.tableKey T.name) = some t → ∀ c ∈ t.columns, ∃ kind, (c, kind) ∈ N.columnsOf config T done
  indexes : ∀ T t, schema (N.tableKey T.name) = some t → ∀ index ∈ t.indexes,
    (index.column, some index.kind) ∈ N.columnsOf config T done
  settled : ∀ y ∈ done, N.Settled schema y.1.name y.2
  fits : ∀ before T x after, done = before ++ (T, x) :: after → N.FieldFits (N.columnsOf config T before) x

/-- A field is shown exactly when it is shown among the columns before it. -/
theorem FirstLoad.shown_iff {ts : List MysqlTableInfo} {done : List (MysqlTableInfo × MysqlTableFieldInfo)}
    (h : FirstLoad N config ts done schema) {T : MysqlTableInfo} (hT : schema (N.tableKey T.name) ≠ none)
    (x : MysqlTableFieldInfo) :
    N.Shown schema T.name x.name ↔ ∃ c ∈ N.columnsOf config T done, N.shows x.name c.1 = true := by
  constructor
  · rintro ⟨t, ht, c, hc, hshows⟩
    obtain ⟨kind, hmem⟩ := h.columns T t ht c hc
    exact ⟨_, hmem, hshows⟩
  · rintro ⟨c, hc, hshows⟩
    obtain ⟨U, hU, rfl⟩ | ⟨y, hy, hkey, rfl⟩ := mem_columnsOf.1 hc
    · obtain ⟨t, ht, hmem⟩ := h.first T U hT hU
      exact ⟨t, ht, _, hmem, hshows⟩
    · obtain ⟨⟨t, ht, hmem⟩, -⟩ := h.settled y hy
      exact ⟨t, hkey ▸ ht, _, hmem, hshows⟩

theorem fits_concat {done : List (MysqlTableInfo × MysqlTableFieldInfo)} {T : MysqlTableInfo}
    {x : MysqlTableFieldInfo}
    (h : ∀ before T x after, done = before ++ (T, x) :: after → N.FieldFits (N.columnsOf config T before) x)
    (hx : N.FieldFits (N.columnsOf config T done) x) :
    ∀ before U z after, done ++ [(T, x)] = before ++ (U, z) :: after →
      N.FieldFits (N.columnsOf config U before) z := by
  intro before U z after heq
  obtain rfl | ⟨after, a, rfl⟩ := List.eq_nil_or_concat' after
  · obtain ⟨rfl, hlast⟩ := List.append_inj' heq rfl
    obtain ⟨rfl, rfl⟩ := Prod.mk.inj (List.singleton_inj.1 hlast)
    exact hx
  · rw [← List.cons_append, ← List.append_assoc] at heq
    exact h before U z after (List.append_inj' heq rfl).1

theorem FirstLoad.created {ts us : List MysqlTableInfo} {done : List (MysqlTableInfo × MysqlTableFieldInfo)}
    {T : MysqlTableInfo} {primary : MysqlTableFieldInfo} (h : FirstLoad N config ts done schema)
    (hts : config.tablesInfo = ts ++ T :: us) (hprimary : T.PrimaryKey primary) (hflag : primary.HasCreateFlag) :
    FirstLoad N config (ts ++ [T]) done (N.created schema T) := by
  have hext := created_extends (N := N) schema T
  have htables : ∀ U ∈ ts ++ [T], N.created schema T (N.tableKey U.name) ≠ none := by
    intro U hU
    obtain hU | hU := List.mem_append.1 hU
    · exact Extends.ne_none hext (h.tables U hU)
    · obtain rfl := List.mem_singleton.1 hU
      exact created_ne_none schema U
  have hflags : ∀ U ∈ ts ++ [T], ∀ primary, U.PrimaryKey primary → primary.HasCreateFlag := by
    intro U hU primary' hprimary'
    obtain hU | hU := List.mem_append.1 hU
    · exact h.flags U hU primary' hprimary'
    · obtain rfl := List.mem_singleton.1 hU
      rw [Option.some.inj (hprimary'.2.1.symm.trans hprimary.2.1)]
      exact hflag
  have hsettled : ∀ y ∈ done, N.Settled (N.created schema T) y.1.name y.2 := fun y hy => (h.settled y hy).mono hext
  cases ht : schema (N.tableKey T.name) with
  | some t =>
      have hsame : N.created schema T = schema := by rw [MysqlNames.created, ht]
      rw [hsame] at htables hsettled ⊢
      exact ⟨htables, hflags, h.first, h.columns, h.indexes, hsettled, h.fits⟩
  | none =>
      have hcreated : N.created schema T =
          Function.update schema (N.tableKey T.name) (some ⟨[N.columnKey T.primaryKey], []⟩) := by
        rw [MysqlNames.created, ht]
      have hself : ∀ (U : MysqlTableInfo) (u : SchemaTable), N.tableKey U.name = N.tableKey T.name →
          N.created schema T (N.tableKey U.name) = some u → u = ⟨[N.columnKey T.primaryKey], []⟩ := by
        intro U u hkey hu
        rw [hcreated, hkey, Function.update_self] at hu
        exact (Option.some.inj hu).symm
      have hfirstTable : ∀ U : MysqlTableInfo, N.tableKey U.name = N.tableKey T.name →
          N.firstTable config U = some T := by
        intro U hkey
        rw [firstTable_congr hkey]
        refine firstTable_of_new hts fun V hV hkey' => h.tables V hV ?_
        rw [hkey', ht]
      have hother : ∀ U : MysqlTableInfo, N.tableKey U.name ≠ N.tableKey T.name →
          N.created schema T (N.tableKey U.name) = schema (N.tableKey U.name) := by
        intro U hkey
        rw [hcreated, Function.update_of_ne hkey]
      refine ⟨htables, hflags, fun U V hsome hV => ?_, fun U u hu c hc => ?_, fun U u hu index hindex => ?_, hsettled,
        h.fits⟩
      · by_cases hkey : N.tableKey U.name = N.tableKey T.name
        · rw [hfirstTable U hkey] at hV
          obtain rfl := Option.some.inj hV
          obtain ⟨u, hu⟩ := Option.ne_none_iff_exists'.1 hsome
          refine ⟨u, hu, ?_⟩
          rw [hself U u hkey hu]
          exact List.mem_cons_self
        · exact (h.first U V (hother U hkey ▸ hsome) hV).mono hext
      · by_cases hkey : N.tableKey U.name = N.tableKey T.name
        · rw [hself U u hkey hu] at hc
          obtain rfl := List.mem_singleton.1 hc
          exact ⟨none, mem_columnsOf.2 (.inl ⟨T, hfirstTable U hkey, rfl⟩)⟩
        · exact h.columns U u (hother U hkey ▸ hu) c hc
      · by_cases hkey : N.tableKey U.name = N.tableKey T.name
        · rw [hself U u hkey hu] at hindex
          exact absurd hindex List.not_mem_nil
        · exact h.indexes U u (hother U hkey ▸ hu) index hindex

section added

variable {ts : List MysqlTableInfo} {done : List (MysqlTableInfo × MysqlTableFieldInfo)} {T : MysqlTableInfo}
  {x : MysqlTableFieldInfo}

/-- A field that is found and settled. -/
theorem FirstLoad.found (h : FirstLoad N config ts done schema) (hT : schema (N.tableKey T.name) ≠ none)
    (hshown : N.Shown schema T.name x.name) (hsettled : N.Settled schema T.name x) :
    FirstLoad N config ts (done ++ [(T, x)]) schema := by
  refine ⟨h.tables, h.flags, h.first, fun U u hu c hc => ?_, fun U u hu index hindex => columnsOf_mono
    (h.indexes U u hu index hindex) _, fun y hy => ?_, fits_concat h.fits ⟨fun _ => ?_, fun hhidden => ?_⟩⟩
  · obtain ⟨kind, hmem⟩ := h.columns U u hu c hc
    exact ⟨kind, columnsOf_mono hmem _⟩
  · obtain hy | hy := List.mem_append.1 hy
    · exact h.settled y hy
    · obtain rfl := List.mem_singleton.1 hy
      exact hsettled
  · cases hkind : x.getFieldIndexType with
    | none =>
        obtain ⟨⟨t, ht, hmem⟩, -⟩ := hsettled
        obtain ⟨kind, hc⟩ := h.columns T t ht _ hmem
        exact ⟨_, hc, rfl, fun h => absurd rfl h⟩
    | some kind =>
        obtain ⟨t, ht, index, hindex, hname, rfl⟩ := hsettled.2 kind hkind
        exact ⟨_, h.indexes T t ht index hindex, hname, fun _ => rfl⟩
  · exact absurd ((h.shown_iff hT x).1 hshown) hhidden

/-- A field that is added with its index. -/
theorem FirstLoad.added {t : SchemaTable} {indexes : List SchemaIndex} (h : FirstLoad N config ts done schema)
    (ht : schema (N.tableKey T.name) = some t) (hhidden : ¬N.Shown schema T.name x.name) (hflag : x.HasCreateFlag)
    (hindexes : IndexesOf N x indexes) (hlength : x.getFieldIndexType ≠ none → 0 ≤ x.indexLength) :
    FirstLoad N config ts (done ++ [(T, x)]) (addedColumn N schema T.name x.name t indexes) := by
  have hext := added_extends x indexes ht
  have hT : schema (N.tableKey T.name) ≠ none := ht ▸ Option.some_ne_none t
  have hother : ∀ U : MysqlTableInfo, N.tableKey U.name ≠ N.tableKey T.name →
      addedColumn N schema T.name x.name t indexes (N.tableKey U.name) = schema (N.tableKey U.name) :=
    fun U hkey => Function.update_of_ne hkey _ _
  have hself : ∀ (U : MysqlTableInfo) (u : SchemaTable), N.tableKey U.name = N.tableKey T.name →
      addedColumn N schema T.name x.name t indexes (N.tableKey U.name) = some u →
      u = ⟨t.columns ++ [N.columnKey x.name], t.indexes ++ indexes⟩ := by
    intro U u hkey hu
    rw [hkey, addedColumn_self] at hu
    exact (Option.some.inj hu).symm
  -- the new column of a table of this name
  have hnew : ∀ U : MysqlTableInfo, N.tableKey U.name = N.tableKey T.name →
      (N.columnKey x.name, x.getFieldIndexType) ∈ N.columnsOf config U (done ++ [(T, x)]) := fun U hkey =>
    mem_columnsOf.2 (.inr ⟨(T, x), List.mem_append_right done List.mem_cons_self, hkey.symm, rfl⟩)
  refine ⟨fun U hU => Extends.ne_none hext (h.tables U hU), h.flags, fun U V hsome hV => ?_, fun U u hu c hc => ?_,
    fun U u hu index hindex => ?_, fun y hy => ?_, fits_concat h.fits ⟨fun hshows => ?_, fun _ => ⟨hflag, hlength⟩⟩⟩
  · by_cases hkey : N.tableKey U.name = N.tableKey T.name
    · exact (h.first U V (hkey ▸ hT) hV).mono hext
    · exact (h.first U V (hother U hkey ▸ hsome) hV).mono hext
  · by_cases hkey : N.tableKey U.name = N.tableKey T.name
    · rw [hself U u hkey hu] at hc
      obtain hold | hc := List.mem_append.1 hc
      · obtain ⟨kind, hmem⟩ := h.columns U t (hkey ▸ ht) c hold
        exact ⟨kind, columnsOf_mono hmem _⟩
      · obtain rfl := List.mem_singleton.1 hc
        exact ⟨_, hnew U hkey⟩
    · obtain ⟨kind, hmem⟩ := h.columns U u (hother U hkey ▸ hu) c hc
      exact ⟨kind, columnsOf_mono hmem _⟩
  · by_cases hkey : N.tableKey U.name = N.tableKey T.name
    · rw [hself U u hkey hu] at hindex
      obtain hold | hindex := List.mem_append.1 hindex
      · exact columnsOf_mono (h.indexes U t (hkey ▸ ht) index hold) _
      · rw [hindexes.column index hindex, hindexes.kind index hindex]
        exact hnew U hkey
    · exact columnsOf_mono (h.indexes U u (hother U hkey ▸ hu) index hindex) _
  · obtain hy | hy := List.mem_append.1 hy
    · exact (h.settled y hy).mono hext
    · obtain rfl := List.mem_singleton.1 hy
      exact settled_added hindexes
  · exact absurd ((h.shown_iff hT x).2 hshows) hhidden

end added

/-- A first load in which no statement fails adds every field where it fits, or it damages the database. -/
theorem ends_firstLoad (hkeys : config.ValidKeys) (hfails : ∀ point, fails point = false) :
    Ends True (fun s => Indexed s ∧ (Damaged N config s ∨
      FirstLoad N config config.tablesInfo (tableFields config.tablesInfo) s))
      (fun s => Indexed s ∧ Damaged N config s) (load N fails config fun _ => none) := by
  refine ends_load (I := fun ts done s => Indexed s ∧ (Damaged N config s ∨ FirstLoad N config ts done s))
    (fun _ _ _ _ _ => trivial) ?_ ?_ ?_ ⟨indexed_start, .inr ?_⟩
  · rintro ts T us primary s hts hprimary hflag ⟨hwell, h⟩
    exact ⟨hwell.created T, h.imp (fun h => h.created T) fun h => h.created hts hprimary hflag⟩
  · rintro ts T us done x j after s - - heq ⟨hwell, h⟩
    have hmem : (T, x) ∈ tableFields config.tablesInfo := heq ▸ List.mem_append_cons_self
    have hcase := addField_case N fails ts.length j T.name x s
    generalize MysqlConfigLoader.addField N fails ts.length j T.name x s = r at hcase ⊢
    cases hcase with
    | refused hrefused =>
        refine .failed ⟨hwell, h.resolve_right fun h => ?_⟩
        obtain hpoint | hpoint | hnone := hrefused
        · exact absurd ((hfails _).symm.trans hpoint) Bool.false_ne_true
        · exact absurd ((hfails _).symm.trans hpoint) Bool.false_ne_true
        · exact h.tables T (List.mem_append_right ts List.mem_cons_self) hnone
    | found hshown =>
        refine .ok ⟨hwell, ?_⟩
        obtain hdamaged | h := h
        · exact .inl hdamaged
        by_cases hsettled : N.Settled s T.name x
        · exact .inr (h.found (h.tables T (List.mem_append_right ts List.mem_cons_self)) hshown hsettled)
        · exact .inl ⟨(T, x), hmem, hshown, hsettled⟩
    | unread _ _ => exact .undefined trivial
    | added ht hhidden hflag hindexes hlength =>
        exact .ok ⟨hwell.added ht hindexes.column, h.imp (fun h => h.added ht hhidden hindexes.column)
          fun h => h.added ht hhidden hflag hindexes hlength⟩
    | stopped ht hhidden _ _ hkind _ =>
        exact .failed ⟨hwell.added ht nofun, damaged_stopped hwell hmem ht hhidden hkind⟩
  · rintro - - s (⟨point, hpoint⟩ | hinvalid) -
    · exact absurd ((hfails point).symm.trans hpoint) Bool.false_ne_true
    · exact absurd hkeys hinvalid
  · exact ⟨nofun, nofun, fun _ _ h => absurd rfl h, (fun _ _ h => nomatch h), (fun _ _ h => nomatch h), nofun,
      fun _ _ _ _ h => absurd h (List.append_ne_nil_of_right_ne_nil _ (List.cons_ne_nil _ _)).symm⟩

end MysqlConfigLoader

namespace Migration

open MysqlConfigLoader

variable {N : MysqlNames} {config : MysqlDatabaseConfig}

/-- Loads in which no statement fails. -/
def repeated (n : ℕ) : List (LoadPoint → Bool) := List.replicate n fun _ => false

theorem clean_repeated (s : Migration) (n : ℕ) : (migrations N config).Along (Clean N config) s (repeated n) := by
  induction n generalizing s with
  | zero => trivial
  | succ n ih => exact ⟨fun _ _ _ _ _ hfails => absurd hfails Bool.false_ne_true, fun s' _ => ih s'⟩

theorem run_repeated_succ (s : Migration) (n : ℕ) : (migrations N config).run s (repeated (n + 1)) =
    ((migrations N config).step s fun _ => false).bind fun t => (migrations N config).run t (repeated n) := rfl

/-- Loads in which no statement fails return true in the end, if all of them come back: a load that returns false has
added a column. -/
theorem exists_loaded (hkeys : config.ValidKeys) {s : Migration}
    (hruns : ∀ n, ∃ t, (migrations N config).run s (repeated n) = some t) :
    ∃ n t, (migrations N config).run s (repeated (n + 1)) = some t ∧ t.loaded = true := by
  classical
  induction hn : ((tableFields config.tablesInfo).filter fun y => ¬N.Shown s.schema y.1.name y.2.name).length
    using Nat.strong_induction_on generalizing s with
  | _ n ih =>
  obtain ⟨t, ht⟩ := hruns 1
  have hstep : (migrations N config).step s (fun _ => false) = some t := by
    rw [run_repeated_succ] at ht
    obtain ⟨t', ht', heq⟩ := Option.bind_eq_some_iff.1 ht
    rwa [Option.some.inj heq] at ht'
  have hload : (migrations N config).step s (fun _ => false) =
      (load N (fun _ => false) config s.schema).map fun r => ⟨r.2, s.loaded || r.1⟩ := rfl
  have hends : Loop.Ends _ _ _ (load N (fun _ => false) config s.schema) := ends_load_progress hkeys fun _ => rfl
  rw [hload] at hstep
  generalize load N (fun _ => false) config s.schema = r at hends hstep
  cases hends with
  | undefined _ => cases hstep
  | ok _ =>
      obtain rfl := Option.some.inj hstep
      exact ⟨0, _, ht, Bool.or_true _⟩
  | @failed schema' h =>
      obtain ⟨hext, y, hy, hhidden, hshown⟩ := h
      obtain rfl := Option.some.inj hstep
      have hrest : ∀ m, (migrations N config).run s (repeated (m + 1)) =
          (migrations N config).run ⟨schema', s.loaded || false⟩ (repeated m) := by
        intro m
        rw [run_repeated_succ] at ht ⊢
        obtain ⟨t', ht', heq⟩ := Option.bind_eq_some_iff.1 ht
        obtain rfl := Option.some.inj heq
        rw [ht', Option.bind_some]
      have hlt : ((tableFields config.tablesInfo).filter fun y =>
          ¬N.Shown schema' y.1.name y.2.name).length < n := by
        have hsub : ((tableFields config.tablesInfo).filter fun y => ¬N.Shown schema' y.1.name y.2.name) =
            ((tableFields config.tablesInfo).filter fun y => ¬N.Shown s.schema y.1.name y.2.name).filter fun y =>
              ¬N.Shown schema' y.1.name y.2.name := by
          rw [List.filter_filter]
          refine List.filter_congr fun z _ => ?_
          have hmono : N.Shown s.schema z.1.name z.2.name → N.Shown schema' z.1.name z.2.name := fun h =>
            Shown.mono h hext
          by_cases hz : N.Shown schema' z.1.name z.2.name
          · simp [hz]
          · simp [hz, mt hmono hz]
        rw [hsub, ← hn, List.length_filter_lt_length_iff_exists]
        exact ⟨y, List.mem_filter.2 ⟨hy, decide_eq_true hhidden⟩, by simpa using hshown⟩
      obtain ⟨m, t, hrun, hloaded⟩ := ih _ hlt (fun m => hrest m ▸ hruns (m + 1)) rfl
      exact ⟨m + 1, t, (hrest (m + 1)).trans hrun, hloaded⟩

/-- The first load of a resumable configuration does no damage. -/
theorem compatible_of_resumable (hkeys : config.ValidKeys) (h : Resumable N config) : N.Compatible config := by
  have hruns : ∀ n, ∃ t, (migrations N config).run start (repeated n) = some t ∧
      (t.loaded = true → N.Complete t.schema config) := fun n => h _ (clean_repeated start n)
  obtain ⟨t, ht, hcomplete⟩ := hruns 1
  have hstep : (migrations N config).step start (fun _ => false) = some t := by
    rw [run_repeated_succ] at ht
    obtain ⟨t', ht', heq⟩ := Option.bind_eq_some_iff.1 ht
    rwa [Option.some.inj heq] at ht'
  have hrest : ∀ n, (migrations N config).run start (repeated (n + 1)) =
      (migrations N config).run t (repeated n) := by
    intro n
    rw [run_repeated_succ, hstep, Option.bind_some]
  have hdamage : ¬(Indexed t.schema ∧ Damaged N config t.schema) := by
    intro hbad
    obtain ⟨n, u, hu, hloaded⟩ := exists_loaded (N := N) (s := t) hkeys fun n => by
      obtain ⟨u, hu, -⟩ := hruns (n + 1)
      exact ⟨u, hrest n ▸ hu⟩
    have hkeep : ∀ s fails s', Indexed s.schema ∧ Damaged N config s.schema →
        (migrations N config).step s fails = some s' → Indexed s'.schema ∧ Damaged N config s'.schema := by
      rintro s fails s' ⟨hwell, hs⟩ hs'
      have hends : Loop.Ends _ _ _ (load N fails config s.schema) := hs.load hwell
      obtain ⟨r, hr, rfl⟩ := Option.map_eq_some_iff.1 hs'
      rw [hr] at hends
      cases hends with
      | ok h => exact h
      | failed h => exact h
    have hbad' := Machine.invariant_run hkeep hbad hu
    obtain ⟨u', hu', hdone⟩ := hruns (n + 1 + 1)
    rw [hrest, hu] at hu'
    obtain rfl := Option.some.inj hu'
    exact hbad'.2.not_complete (hdone hloaded)
  have hload : (migrations N config).step start (fun _ => false) =
      (load N (fun _ => false) config fun _ => none).map fun r => ⟨r.2, false || r.1⟩ := rfl
  have hends := ends_firstLoad (N := N) hkeys (fun _ => rfl)
  rw [hload] at hstep
  generalize load N (fun _ => false) config (fun _ => none) = r at hends hstep
  cases hends with
  | undefined _ => cases hstep
  | failed hbad =>
      obtain rfl := Option.some.inj hstep
      exact absurd hbad hdamage
  | ok hfirst =>
      obtain rfl := Option.some.inj hstep
      obtain ⟨hwell, hdamaged | hfirst⟩ := hfirst
      · exact absurd ⟨hwell, hdamaged⟩ hdamage
      refine ⟨hfirst.flags, fun T hT => ?_, hfirst.fits⟩
      obtain ⟨primary, hprimary⟩ := hkeys T hT
      obtain ⟨u, hu, hmem⟩ := (hcomplete (Bool.or_true false) T hT).1 primary
        (List.mem_of_getElem? hprimary.2.1)
      obtain ⟨kind, hc⟩ := hfirst.columns T u hu _ hmem
      exact ⟨_, hc, congrArg N.columnKey hprimary.2.2⟩

/-- In every clean run the loader comes back and leaves a complete database once it has returned true, exactly when the
configuration is compatible. -/
theorem resumable_iff (hkeys : config.ValidKeys) : Resumable N config ↔ N.Compatible config :=
  ⟨compatible_of_resumable hkeys, resumable_of_compatible hkeys⟩

/-- A pattern in which an underscore stands for any byte. -/
def likeName : Str → Str → Bool
  | [], [] => true
  | p :: ps, c :: cs => (p == 95 || p == c) && likeName ps cs
  | _, _ => false

theorem likeName_self (name : Str) : likeName name name = true := by
  induction name with
  | nil => rfl
  | cons c cs ih => rw [likeName, ih, beq_self_eq_true, Bool.or_true, Bool.and_true]

/-- A server that compares names byte by byte. -/
def plainNames : MysqlNames := ⟨id, id, likeName, likeName_self, fun _ _ h => congrArg likeName h⟩

/-- A table `p` with the primary key `id` and the indexed columns `a_` and `ab`. `DESCRIBE` of `a_` shows `ab`, but `a_`
is added first. -/
def lookAlikes : MysqlDatabaseConfig where
  dbname := [100]
  tablesInfo := [⟨[112], 0, [105, 100], [⟨[105, 100], .int, 0, 0, 4⟩, ⟨[97, 95], .bigint, 0, 1, 16⟩,
    ⟨[97, 98], .bigint, 0, 1, 16⟩], .innodb⟩]

theorem lookAlikes_keys : lookAlikes.ValidKeys := by
  intro T hT
  obtain rfl := List.mem_singleton.1 hT
  exact ⟨_, le_refl 0, rfl, rfl⟩

theorem lookAlikes_compatible : plainNames.Compatible lookAlikes where
  flags := by
    intro T hT primary hprimary
    obtain rfl := List.mem_singleton.1 hT
    obtain rfl := Option.some.inj hprimary.2.1
    exact ⟨.autoincrement, by decide, by decide⟩
  keys := by
    intro T hT
    obtain rfl := List.mem_singleton.1 hT
    exact ⟨([105, 100], none), by decide, rfl⟩
  fields := by
    intro before T x after heq
    -- no column is shown before it comes up
    rcases before with _ | ⟨y, _ | ⟨z, before⟩⟩
    · obtain ⟨rfl, rfl⟩ := Prod.mk.inj (List.cons.inj heq).1
      exact ⟨fun h => absurd h (by decide), fun _ => ⟨⟨.notNull, by decide, by decide⟩, by decide⟩⟩
    · obtain ⟨rfl, hrest⟩ := List.cons.inj heq
      obtain ⟨rfl, rfl⟩ := Prod.mk.inj (List.cons.inj hrest).1
      exact ⟨fun h => absurd h (by decide), fun _ => ⟨⟨.notNull, by decide, by decide⟩, by decide⟩⟩
    · have hlen := congrArg List.length heq
      rw [show (tableFields lookAlikes.tablesInfo).length = 2 from rfl] at hlen
      simp at hlen

theorem lookAlikes_resumable : lookAlikes.ValidKeys ∧ Resumable plainNames lookAlikes :=
  ⟨lookAlikes_keys, (resumable_iff lookAlikes_keys).2 lookAlikes_compatible⟩

/-- The first run adds the column `a_` and fails to add its index, the second run succeeds. -/
def indexFails : List (LoadPoint → Bool) := [fun point => decide (point = .addIndex 0 1), fun _ => false]

/-- The second run finds the column and returns true without the index. -/
theorem indexFails_incomplete : lookAlikes.ValidKeys ∧
    ∃ t, (migrations plainNames lookAlikes).run start indexFails = some t ∧
      t.loaded = true ∧ ¬plainNames.Complete t.schema lookAlikes := by
  have hrun : ((migrations plainNames lookAlikes).run start indexFails).map (fun t => (t.loaded, t.schema [112])) =
      some (true, some ⟨[[105, 100], [97, 95], [97, 98]], [⟨[97, 98], .normal, none⟩]⟩) := by decide
  obtain ⟨t, ht, hfinal⟩ := Option.map_eq_some_iff.1 hrun
  obtain ⟨hloaded, htable⟩ := Prod.mk.inj hfinal
  refine ⟨lookAlikes_keys, t, ht, hloaded, fun h => ?_⟩
  obtain ⟨u, hu, index, hmem, hname, -⟩ :=
    (h _ List.mem_cons_self).2 (⟨[97, 95], .bigint, 0, 1, 16⟩, 1) (by decide) .normal (by decide)
  obtain rfl := Option.some.inj (htable.symm.trans hu)
  obtain rfl := List.mem_singleton.1 hmem
  exact absurd hname (by decide)

end Migration

end JmyGame
