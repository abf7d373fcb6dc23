import Introspect.Listing.ForeignKey
import Introspect.Proofs.Listing.Groups
import Mathlib

/-!
# Foreign keys: sorted by name, cut into runs

The specification of a listing of foreign keys sorts its rows stably by key name, code point by
code point (which is byte by byte in UTF-8, `Text.lt_iff_bytes_lt`), and then by position; it
cuts the sorted rows into maximal runs of one name and reads one key from each run
(`foreignKeySpec`): the run's name, its columns and referenced columns row by row, and the
referenced table from its first row.

`foreignKeys` instead groups the rows by name in order of first occurrence, sorts each group by
position and then the groups by name. Sorting by name first groups the rows by name
(`Sorting.sortSpec_lex`), so the runs are the groups (`keyRuns_eq`), in the order in which the
groups are sorted (`stableSort_keyGroups`). On positions where the order is transitive the listing
therefore reads exactly when its rows have what the specification reads (`ForeignKeyRows`), and
then it reads the specified keys (`foreignKeys_eq_ok_iff`).
-/

set_option autoImplicit false
set_option relaxedAutoImplicit false

namespace Introspect

/-- The text of a column, empty when the row has no text there. -/
def Row.textD (r : Row) (column : String) : String :=
  match r.get? column with
  | some (.text s) => s
  | _ => ""

/-- The row holds text in a column. -/
def Row.HasText (r : Row) (column : String) : Prop :=
  ∃ s, r.get? column = some (.text s)

namespace Row

variable {r : Row} {column : String}

theorem HasText.get? (h : r.HasText column) : r.get? column = some (.text (r.textD column)) := by
  obtain ⟨s, hs⟩ := h
  simp [textD, hs]

theorem HasText.getD (h : r.HasText column) : r.getD column = .text (r.textD column) := by
  simp [Row.getD, h.get?]

theorem requireText_eq_ok_iff {s : String} :
    r.requireText column = .ok s ↔ r.HasText column ∧ s = r.textD column := by
  unfold requireText require HasText textD
  split
  · rename_i v hv
    cases v <;> simp [hv, Value.asText?, bind, Except.bind, pure, Except.pure, throw, throwThe,
      MonadExceptOf.throw, eq_comm]
  · rename_i hv
    simp [hv, bind, Except.bind]

end Row

namespace Listing

open Sorting

/-! ### The specification -/

/-- The order of the specification: by key name, code point by code point, then by position. -/
def foreignKeyBefore : Row → Row → Bool :=
  lexBefore (·.textD "fk_name") (byColumn keySequenceColumn)

/-- The rows of each key: the listing stably sorted by name and position, cut into maximal runs
of one name. -/
def keyRuns (rows : List Row) : List (List Row) :=
  (sortSpec foreignKeyBefore rows).splitBy fun a b => a.textD "fk_name" == b.textD "fk_name"

/-- The key of a run: its name and referenced table from its first row, its columns and
referenced columns from every row, in order. -/
def keyOfRun (run : List Row) : ForeignKey :=
  let first := run.headD Row.empty
  { name := first.textD "fk_name"
    columns := run.map (·.textD "fk_column_name")
    referenced := ⟨first.textD "pk_database_name", first.textD "pk_schema_name",
      first.textD "pk_table_name"⟩
    referencedColumns := run.map (·.textD "pk_column_name") }

/-- The foreign keys of a listing as specified: one for each run, in order. -/
def foreignKeySpec (rows : List Row) : List ForeignKey :=
  (keyRuns rows).map keyOfRun

/-- What the keys of a listing read: a text name and a position in every row, text columns in
every row, and a text referenced table in the first row of every run. -/
structure ForeignKeyRows (rows : List Row) : Prop where
  named : ∀ r ∈ rows, r.HasText "fk_name"
  positioned : ∀ r ∈ rows, (r.get? keySequenceColumn).isSome
  columns : ∀ r ∈ rows, r.HasText "fk_column_name" ∧ r.HasText "pk_column_name"
  referenced : ∀ run ∈ keyRuns rows, ∀ first ∈ run.head?,
    first.HasText "pk_database_name" ∧ first.HasText "pk_schema_name" ∧
      first.HasText "pk_table_name"

/-! ### Reading one key -/

/-- The cells that the key of a run reads are text, in the order it reads them: the name in its
first row, the columns in every row, the referenced table in its first row, and the referenced
columns in every row. -/
def RunReadable (run : List Row) : Prop :=
  (∀ first ∈ run.head?, first.HasText "fk_name") ∧ (∀ r ∈ run, r.HasText "fk_column_name") ∧
    (∀ first ∈ run.head?, first.HasText "pk_database_name" ∧ first.HasText "pk_schema_name" ∧
      first.HasText "pk_table_name") ∧
    ∀ r ∈ run, r.HasText "pk_column_name"

theorem mapM_requireText_eq_ok_iff {run : List Row} {column : String} {texts : List String} :
    run.mapM (·.requireText column) = .ok texts ↔
      (∀ r ∈ run, r.HasText column) ∧ texts = run.map (·.textD column) := by
  rw [mapM_eq_ok_iff fun r _ s hs => (Row.requireText_eq_ok_iff.mp hs).2]
  simp [Row.requireText_eq_ok_iff]

theorem tableRef_ofRow_eq_ok_iff {r : Row} {t : TableRef} :
    TableRef.ofRow r = .ok t ↔
      (r.HasText "pk_database_name" ∧ r.HasText "pk_schema_name" ∧ r.HasText "pk_table_name") ∧
        t = ⟨r.textD "pk_database_name", r.textD "pk_schema_name", r.textD "pk_table_name"⟩ := by
  simp only [TableRef.ofRow, Except.bind_eq_ok, Row.requireText_eq_ok_iff]
  simp [pure, Except.pure, and_assoc, eq_comm]

/-- A run of rows reads into its key exactly when the cells that the key reads are text. -/
theorem ofGroup_eq_ok_iff {run : List Row} (hrun : run ≠ []) {k : Option ForeignKey} :
    ForeignKey.ofGroup run = .ok k ↔ RunReadable run ∧ k = some (keyOfRun run) := by
  obtain ⟨first, rest, rfl⟩ := List.exists_cons_of_ne_nil hrun
  simp only [ForeignKey.ofGroup, Except.bind_eq_ok, Row.requireText_eq_ok_iff,
    mapM_requireText_eq_ok_iff, tableRef_ofRow_eq_ok_iff]
  simp [pure, Except.pure, RunReadable, keyOfRun, and_assoc, eq_comm]

/-! ### The runs are the groups -/

/-- The rows of one name, in position order. -/
def nameRun (rows : List Row) (s : String) : List Row :=
  sortSpec (byColumn keySequenceColumn) (rows.filter (·.textD "fk_name" = s))

section Runs

variable {rows : List Row}

theorem mem_nameRun {s : String} {r : Row} :
    r ∈ nameRun rows s ↔ r ∈ rows ∧ r.textD "fk_name" = s := by
  simp [nameRun, sortSpec, List.mem_mergeSort]

/-- Every row lies in one of the runs, and the runs hold nothing else. -/
theorem exists_mem_keyRuns_iff {r : Row} : (∃ run ∈ keyRuns rows, r ∈ run) ↔ r ∈ rows := by
  rw [← List.mem_flatten, keyRuns, List.flatten_splitBy, sortSpec, List.mem_mergeSort]

/-- On positions where the order is transitive, the specification's runs are the rows of each name
in position order, for any strictly ascending list of exactly the names of the rows. No run is
empty, each has one name, and consecutive runs have ascending, so different, names. -/
theorem keyRuns_eq {cells : List Value} (hcells : Value.TransitiveOn cells)
    (hpos : ∀ r ∈ rows, r.getD keySequenceColumn ∈ cells) {ks : List String}
    (hks : ks.Pairwise (· < ·)) (hnames : ∀ s, s ∈ ks ↔ ∃ r ∈ rows, r.textD "fk_name" = s) :
    keyRuns rows = ks.map (nameRun rows) := by
  have hne : ∀ s ∈ ks, nameRun rows s ≠ [] := by
    intro s hs hnil
    obtain ⟨r, hr, hrs⟩ := (hnames s).mp hs
    have hmem : r ∈ nameRun rows s := mem_nameRun.mpr ⟨hr, hrs⟩
    rw [hnil] at hmem
    exact List.not_mem_nil hmem
  have horder : StrictWeakOrder (fun r : Row => r.getD keySequenceColumn ∈ cells)
      (byColumn keySequenceColumn) :=
    hcells.strictWeakOrder.comap fun r : Row => r.getD keySequenceColumn
  have hflat : sortSpec foreignKeyBefore rows = (ks.map (nameRun rows)).flatten :=
    sortSpec_lex (fun r : Row => r.textD "fk_name") horder ks hks rows hpos
      fun r hr => (hnames _).mpr ⟨r, hr, rfl⟩
  unfold keyRuns
  rw [hflat]
  apply List.splitBy_flatten
  · intro hnil
    obtain ⟨s, hs, hempty⟩ := List.mem_map.mp hnil
    exact hne s hs hempty
  · intro run hrun
    obtain ⟨s, _, rfl⟩ := List.mem_map.mp hrun
    refine List.Pairwise.isChain (List.pairwise_of_forall_mem_list fun a ha b hb => ?_)
    rw [(mem_nameRun.mp ha).2, (mem_nameRun.mp hb).2, beq_self_eq_true]
  · rw [List.isChain_map]
    refine hks.isChain.imp_of_mem_imp fun s s' hs hs' hlt => ⟨hne s hs, hne s' hs', ?_⟩
    rw [(mem_nameRun.mp (List.getLast_mem (hne s hs))).2,
      (mem_nameRun.mp (List.head_mem (hne s' hs'))).2]
    exact beq_false_of_ne (ne_of_lt hlt)

/-- With a text name in every row, the runs read exactly when the listing has what the
specification reads. -/
theorem forall_runReadable_iff (hnamed : ∀ r ∈ rows, r.HasText "fk_name")
    (hpositioned : ∀ r ∈ rows, (r.get? keySequenceColumn).isSome) :
    (∀ run ∈ keyRuns rows, RunReadable run) ↔ ForeignKeyRows rows := by
  have hhead : ∀ run ∈ keyRuns rows, ∀ first ∈ run.head?, first ∈ rows := fun run hrun first h =>
    exists_mem_keyRuns_iff.mp ⟨run, hrun, List.mem_of_mem_head? h⟩
  constructor
  · intro hread
    refine ⟨hnamed, hpositioned, fun r hr => ?_, fun run hrun => (hread run hrun).2.2.1⟩
    obtain ⟨run, hrun, hr⟩ := exists_mem_keyRuns_iff.mpr hr
    exact ⟨(hread run hrun).2.1 r hr, (hread run hrun).2.2.2 r hr⟩
  · intro hrows run hrun
    have hin : ∀ r ∈ run, r ∈ rows := fun r hr => exists_mem_keyRuns_iff.mp ⟨run, hrun, hr⟩
    exact ⟨fun first h => hnamed first (hhead run hrun first h),
      fun r hr => (hrows.columns r (hin r hr)).1, hrows.referenced run hrun,
      fun r hr => (hrows.columns r (hin r hr)).2⟩

/-- Every specified key pairs each of its columns with a referenced column, and has at least
one. -/
theorem length_columns_foreignKeySpec {k : ForeignKey} (hk : k ∈ foreignKeySpec rows) :
    k.columns.length = k.referencedColumns.length ∧ 0 < k.columns.length := by
  obtain ⟨run, hrun, rfl⟩ := List.mem_map.mp hk
  have hne : run ≠ [] := List.ne_nil_of_mem_splitBy hrun
  simp only [keyOfRun, List.length_map, true_and]
  exact List.length_pos_iff.mpr hne

/-- On positions where the order is transitive, the specified keys are named by the names of the
rows, each once, in strictly ascending order. -/
theorem names_foreignKeySpec {cells : List Value} (hcells : Value.TransitiveOn cells)
    (hpos : ∀ r ∈ rows, r.getD keySequenceColumn ∈ cells) :
    ((foreignKeySpec rows).map (·.name)).Pairwise (· < ·) ∧
      ∀ s, s ∈ (foreignKeySpec rows).map (·.name) ↔ ∃ r ∈ rows, r.textD "fk_name" = s := by
  have hks := pairwise_lt_sortSpec (nodup_firstSeen (rows.map (·.textD "fk_name")))
  have hnames : ∀ s, s ∈ sortSpec (fun a b => decide (a < b))
      (firstSeen (rows.map (·.textD "fk_name"))) ↔ ∃ r ∈ rows, r.textD "fk_name" = s := by
    simp [sortSpec, List.mem_mergeSort]
  have hname : ∀ s ∈ sortSpec (fun a b => decide (a < b))
      (firstSeen (rows.map (·.textD "fk_name"))),
      (keyOfRun (nameRun rows s)).name = s := by
    intro s hs
    obtain ⟨r, hr, hrs⟩ := (hnames s).mp hs
    obtain ⟨first, rest, hcons⟩ := List.exists_cons_of_ne_nil
      (List.ne_nil_of_mem (mem_nameRun.mpr ⟨hr, hrs⟩))
    simp only [keyOfRun, hcons, List.headD_cons]
    exact (mem_nameRun.mp (hcons ▸ List.mem_cons_self)).2
  have hmap : (((sortSpec (fun a b => decide (a < b))
      (firstSeen (rows.map (·.textD "fk_name")))).map (nameRun rows)).map keyOfRun).map (·.name) =
        sortSpec (fun a b => decide (a < b)) (firstSeen (rows.map (·.textD "fk_name"))) := by
    rw [List.map_map, List.map_map]
    exact (List.map_congr_left hname).trans (List.map_id _)
  rw [foreignKeySpec, keyRuns_eq hcells hpos hks hnames, hmap]
  exact ⟨hks, hnames⟩

end Runs

/-! ### The listing's groups, sorted -/

section Groups

variable {rows : List Row}

theorem Row.hasText_of_getD {r : Row} {column s : String} (hsome : (r.get? column).isSome)
    (h : r.getD column = .text s) : r.HasText column := by
  obtain ⟨v, hv⟩ := Option.isSome_iff_exists.mp hsome
  exact ⟨s, by simpa [Row.getD, hv] using h⟩

/-- With a text name in every row, the group of a name cell is the run of that name. -/
theorem keyGroups_eq (hnamed : ∀ r ∈ rows, r.HasText "fk_name") :
    (firstSeen (rows.map (·.getD "fk_name"))).map
        (fun c => (c, groupOf rows "fk_name" keySequenceColumn c)) =
      (firstSeen (rows.map (·.textD "fk_name"))).map fun s => (Value.text s, nameRun rows s) := by
  have hcells : rows.map (·.getD "fk_name") = (rows.map (·.textD "fk_name")).map Value.text := by
    rw [List.map_map]
    exact List.map_congr_left fun r hr => (hnamed r hr).getD
  rw [hcells, firstSeen_map (fun _ _ h => Value.text.inj h), List.map_map]
  refine List.map_congr_left fun s _ => ?_
  have hfilter : rows.filter (·.getD "fk_name" == .text s) =
      rows.filter (·.textD "fk_name" = s) :=
    List.filter_congr fun r hr => by
      rw [(hnamed r hr).getD, Bool.eq_iff_iff, beq_iff_eq, decide_eq_true_iff, Value.text.injEq]
  simp only [Function.comp_apply, groupOf, hfilter, nameRun]

/-- Groups named by texts sort by name: the texts are ordered as strings. -/
theorem stableSort_keyGroups (names : List String) :
    stableSort wideEntries positionBefore (names.map fun s => (Value.text s, nameRun rows s)) =
      some ((sortSpec (fun a b => decide (a < b)) names).map
        fun s => (Value.text s, nameRun rows s)) := by
  have htexts : Value.TransitiveOn (names.map Value.text) :=
    Value.transitiveOn_of_exact fun a ha => by
      obtain ⟨s, _, rfl⟩ := List.mem_map.mp ha
      trivial
  have hcells : ∀ e ∈ names.map (fun s => (Value.text s, nameRun rows s)),
      e.1 ∈ names.map Value.text := by
    intro e he
    obtain ⟨s, hs, rfl⟩ := List.mem_map.mp he
    exact List.mem_map_of_mem hs
  have hmap : (sortSpec (fun a b => decide (a < b)) names).map
      (fun s => (Value.text s, nameRun rows s)) =
        sortSpec positionBefore (names.map fun s => (Value.text s, nameRun rows s)) :=
    sortSpec_map _ fun a _ b _ => by
      simp only [positionBefore]
      rw [Bool.eq_iff_iff, decide_eq_true_iff, beq_iff_eq, Value.compare_text_eq_lt_iff]
  rw [stableSort_eq_sortSpec wideEntries (positionBefore_strictWeakOrder htexts) hcells, hmap]

/-- With a text name in every row and transitive positions, the listing's groups sorted by name
are the specification's runs. -/
theorem sortedGroups_eq {cells : List Value} (hcells : Value.TransitiveOn cells)
    (hpos : ∀ r ∈ rows, r.getD keySequenceColumn ∈ cells)
    (hnamed : ∀ r ∈ rows, r.HasText "fk_name") :
    ∃ sorted, stableSort wideEntries positionBefore
        ((firstSeen (rows.map (·.getD "fk_name"))).map
          fun c => (c, groupOf rows "fk_name" keySequenceColumn c)) = some sorted ∧
      sorted.map Prod.snd = keyRuns rows := by
  refine ⟨_, by rw [keyGroups_eq hnamed, stableSort_keyGroups], ?_⟩
  rw [keyRuns_eq hcells hpos (pairwise_lt_sortSpec (nodup_firstSeen (rows.map (·.textD "fk_name"))))
    fun s => by simp [sortSpec, List.mem_mergeSort], List.map_map]
  rfl

/-- The keys of sorted groups read exactly when every group's cells are text. -/
theorem mapM_ofGroup_eq_ok_iff {sorted : List (Value × List Row)}
    (hne : ∀ g ∈ sorted, g.2 ≠ []) {keys : List (Option ForeignKey)} :
    sorted.mapM (fun g => ForeignKey.ofGroup g.2) = .ok keys ↔
      (∀ g ∈ sorted, RunReadable g.2) ∧ keys = sorted.map fun g => some (keyOfRun g.2) := by
  rw [mapM_eq_ok_iff fun g hg k hk => ((ofGroup_eq_ok_iff (hne g hg)).mp hk).2]
  refine and_congr_left fun _ => forall₂_congr fun g hg => ?_
  rw [ofGroup_eq_ok_iff (hne g hg)]
  simp

/-- When the first row of every group reads its name as text, every row has a text name: it
shares its name cell with the first row of its group. -/
theorem named_of_groups_readable (hkeyed : Keyed rows "fk_name" keySequenceColumn)
    (hread : ∀ c ∈ firstSeen (rows.map (·.getD "fk_name")),
      RunReadable (groupOf rows "fk_name" keySequenceColumn c)) :
    ∀ r ∈ rows, r.HasText "fk_name" := by
  intro r hr
  have hc : r.getD "fk_name" ∈ firstSeen (rows.map (·.getD "fk_name")) :=
    mem_firstSeen.mpr (List.mem_map_of_mem hr)
  obtain ⟨first, rest, hcons⟩ := List.exists_cons_of_ne_nil (groupOf_ne_nil hc)
  have hfirst : first.HasText "fk_name" := (hread _ hc).1 first (by rw [hcons]; rfl)
  have hcell : first.getD "fk_name" = r.getD "fk_name" :=
    (mem_groupOf.mp (hcons ▸ List.mem_cons_self)).2
  exact Row.hasText_of_getD (hkeyed r hr).1 (hcell.symm.trans hfirst.getD)

/-- The keys read from the runs, in order, are the specified keys. -/
theorem reduceOption_keys {sorted : List (Value × List Row)}
    (hruns : sorted.map Prod.snd = keyRuns rows) :
    (sorted.map fun g => some (keyOfRun g.2)).reduceOption = foreignKeySpec rows := by
  rw [foreignKeySpec, ← hruns, List.map_map]
  simp [List.reduceOption, List.filterMap_map, Function.comp_def]

end Groups

/-! ### The listing -/

/-- On positions where the order is transitive, the foreign keys of a listing read exactly when its
rows have what the specification reads, and they are then the specified keys: one for each maximal
run of one name in the listing stably sorted by name and position. The sort keeps the groups, each a
nonempty run of rows with one name cell; with text names the sorted groups are the runs. -/
theorem foreignKeys_eq_ok_iff {rows : List Row}
    (htrans : Value.TransitiveOn (rows.filterMap (·.get? keySequenceColumn)))
    {ds : List ForeignKey} :
    foreignKeys rows = .ok ds ↔ ForeignKeyRows rows ∧ ds = foreignKeySpec rows := by
  have hpresent : ∀ r ∈ rows, (r.get? keySequenceColumn).isSome →
      r.getD keySequenceColumn ∈ rows.filterMap (·.get? keySequenceColumn) :=
    fun _ hr hsome => getD_mem_filterMap hr hsome
  have hpos : Keyed rows "fk_name" keySequenceColumn →
      ∀ r ∈ rows, r.getD keySequenceColumn ∈ rows.filterMap (·.get? keySequenceColumn) :=
    fun hkeyed r hr => hpresent r hr (hkeyed r hr).2
  unfold foreignKeys
  rw [Except.bind_eq_ok]
  simp only [groupsByPosition_eq_ok_iff htrans hpresent]
  constructor
  · rintro ⟨groups, ⟨hkeyed, rfl⟩, hmatch⟩
    split at hmatch
    · rename_i sorted hsort
      simp only [pure_bind, Except.bind_eq_ok, liftRow_eq_ok, Except.pure_eq_ok] at hmatch
      obtain ⟨keys, hkeys, rfl⟩ := hmatch
      have hperm := stableSort_perm wideEntries hsort
      have hne : ∀ g ∈ sorted, g.2 ≠ [] := by
        intro g hg
        obtain ⟨c, hc, rfl⟩ := List.mem_map.mp (hperm.subset hg)
        exact groupOf_ne_nil hc
      obtain ⟨hread, rfl⟩ := (mapM_ofGroup_eq_ok_iff hne).mp hkeys
      have hnamed := named_of_groups_readable hkeyed fun c hc =>
        hread _ (hperm.mem_iff.mpr (List.mem_map_of_mem hc))
      obtain ⟨sorted', hsort', hruns⟩ := sortedGroups_eq htrans (hpos hkeyed) hnamed
      obtain rfl : sorted' = sorted := Option.some.inj (hsort'.symm.trans hsort)
      refine ⟨(forall_runReadable_iff hnamed fun r hr => (hkeyed r hr).2).mp fun run hrun => ?_,
        reduceOption_keys hruns⟩
      rw [← hruns] at hrun
      obtain ⟨g, hg, rfl⟩ := List.mem_map.mp hrun
      exact hread g hg
    · simp at hmatch
  · rintro ⟨hrows, rfl⟩
    have hkeyed : Keyed rows "fk_name" keySequenceColumn := fun r hr =>
      ⟨Option.isSome_iff_exists.mpr ⟨_, (hrows.named r hr).get?⟩, hrows.positioned r hr⟩
    obtain ⟨sorted, hsort, hruns⟩ := sortedGroups_eq htrans (hpos hkeyed) hrows.named
    have hne : ∀ g ∈ sorted, g.2 ≠ [] := fun g hg => List.ne_nil_of_mem_splitBy
      (by rw [keyRuns] at hruns; exact hruns ▸ List.mem_map_of_mem hg)
    have hread := (forall_runReadable_iff hrows.named hrows.positioned).mpr hrows
    refine ⟨_, ⟨hkeyed, rfl⟩, ?_⟩
    rw [hsort]
    simp only [pure_bind, Except.bind_eq_ok, liftRow_eq_ok, Except.pure_eq_ok]
    refine ⟨_, (mapM_ofGroup_eq_ok_iff hne).mpr ⟨fun g hg => hread g.2 ?_, rfl⟩, ?_⟩
    · rw [← hruns]
      exact List.mem_map_of_mem hg
    · rw [reduceOption_keys hruns]

theorem foreignKeys_two_positions :
    Value.TransitiveOn ([Row.ofList [("fk_name", .text "fk"), ("key_sequence", .int 2)],
      Row.ofList [("fk_name", .text "fk"), ("key_sequence", .int 1)]].filterMap
        (·.get? keySequenceColumn)) ∧
    (foreignKeys [Row.ofList [("fk_name", .text "fk"), ("key_sequence", .int 2)],
        Row.ofList [("fk_name", .text "fk"), ("key_sequence", .int 1)]] = .ok [] ↔
      ForeignKeyRows [Row.ofList [("fk_name", .text "fk"), ("key_sequence", .int 2)],
        Row.ofList [("fk_name", .text "fk"), ("key_sequence", .int 1)]] ∧
      [] = foreignKeySpec [Row.ofList [("fk_name", .text "fk"), ("key_sequence", .int 2)],
        Row.ofList [("fk_name", .text "fk"), ("key_sequence", .int 1)]]) :=
  have htrans : Value.TransitiveOn ([Row.ofList [("fk_name", .text "fk"), ("key_sequence", .int 2)],
      Row.ofList [("fk_name", .text "fk"), ("key_sequence", .int 1)]].filterMap
        (·.get? keySequenceColumn)) :=
    Value.transitiveOn_of_exact (by decide)
  ⟨htrans, foreignKeys_eq_ok_iff htrans⟩

end Listing

end Introspect
