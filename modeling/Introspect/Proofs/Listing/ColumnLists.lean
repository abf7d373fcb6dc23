import Introspect.Proofs.Listing.Missing
import Mathlib

/-!
# Column lists in position order

`orderedColumnList` reads the value column of a listing in position order: it reads the position
and value cells of every row and sorts them (`orderedColumnList_eq_sortByPosition`). On positions
where the cell order is transitive it reads exactly when no row lacks the position or the value
column, and its cells are then those of the rows stably sorted by position
(`orderedColumnList_eq`). Otherwise the error is the first row, in listing order, that lacks one of them, the position
column first. A stable sort has one output (`SortsTo.eq`), so putting the rows in any order that
keeps the rows of equal positions in their order changes no list that is read
(`orderedColumnList_toOption_congr`). It can change which row an error names, since the rows are
checked in the order given (`orderedColumnList_error_follows_order`).

`groupedColumnLists` first groups the rows by a column, groups in order of first occurrence and
each in position order, and then reads the value column group by group. Every row is checked for
the group and position columns before any value is read, in listing order; the values are then
checked in the grouped order (`groupedColumnLists_eq`). Each list is the ordered list of its
group, one list per group cell, and together they hold every row once.
-/

set_option autoImplicit false
set_option relaxedAutoImplicit false

namespace Introspect

theorem Value.TransitiveOn.mono {cells cells' : List Value} (h : TransitiveOn cells)
    (hsub : ∀ c ∈ cells', c ∈ cells) : TransitiveOn cells' :=
  fun a ha b hb c hc => h a (hsub a ha) b (hsub b hb) c (hsub c hc)

namespace Sorting

/-- A strict weak order on some values is one on fewer of them. -/
theorem StrictWeakOrder.mono {α : Type} {P Q : α → Prop} {before : α → α → Bool}
    (h : StrictWeakOrder P before) (hQ : ∀ a, Q a → P a) : StrictWeakOrder Q before where
  irrefl a ha := h.irrefl a (hQ a ha)
  trans a b c ha hb hc := h.trans a b c (hQ a ha) (hQ b hb) (hQ c hc)
  cotrans a b c ha hb hc := h.cotrans a b c (hQ a ha) (hQ b hb) (hQ c hc)

end Sorting

namespace Listing

open Sorting

section Order

variable {rows : List Row} {column : String}

/-- Two rows do not sort apart by a column exactly when their cells there compare equal. -/
theorem tie_byColumn (column : String) (c x : Row) :
    tie (byColumn column) c x = ((x.getD column).compare (c.getD column) == .eq) := by
  simp only [tie, byColumn, Value.compare_swap (x.getD column) (c.getD column)]
  cases (x.getD column).compare (c.getD column) <;> rfl

/-- Rows whose cells in a column lie where the cell order is transitive are in a strict weak order
by that column. -/
theorem byColumn_strictWeakOrder {cells : List Value} (h : Value.TransitiveOn cells)
    (hpos : ∀ r ∈ rows, r.getD column ∈ cells) : StrictWeakOrder (· ∈ rows) (byColumn column) :=
  (h.strictWeakOrder.comap fun r : Row => r.getD column).mono hpos

/-- Sorting rows paired with their positions sorts the rows by the position column. -/
theorem sortByPosition_rows (p : Profile) {cells : List Value} (h : Value.TransitiveOn cells)
    (hpos : ∀ r ∈ rows, r.getD column ∈ cells) {β : Type} (F : Row → β) :
    sortByPosition p (rows.map fun r => (r.getD column, F r)) =
      .ok ((sortSpec (byColumn column) rows).map F) := by
  have hentries : ∀ e ∈ rows.map (fun r => (r.getD column, F r)), e.1 ∈ cells := by
    intro e he
    obtain ⟨r, hr, rfl⟩ := List.mem_map.mp he
    exact hpos r hr
  have hmap : (sortSpec (byColumn column) rows).map (fun r => (r.getD column, F r)) =
      sortSpec positionBefore (rows.map fun r => (r.getD column, F r)) :=
    sortSpec_map _ fun _ _ _ _ => rfl
  rw [sortByPosition_eq p h hentries, ← hmap, List.map_map]
  rfl

/-- `rows'` holds the rows of `rows` in an order that keeps the rows whose cells in `column`
compare equal in their order. -/
structure KeepsTies (column : String) (rows rows' : List Row) : Prop where
  perm : rows'.Perm rows
  ties : ∀ c ∈ rows, rows'.filter (fun r => (r.getD column).compare (c.getD column) == .eq) =
    rows.filter fun r => (r.getD column).compare (c.getD column) == .eq

theorem filter_tie_byColumn (c : Row) (l : List Row) :
    l.filter (tie (byColumn column) c) =
      l.filter fun r => (r.getD column).compare (c.getD column) == .eq :=
  List.filter_congr fun x _ => tie_byColumn column c x

/-- A stable sort by a column keeps the rows of equal cells in their order. -/
theorem keepsTies_of_sortsTo {sigma : List Row}
    (h : SortsTo (· ∈ rows) (byColumn column) rows sigma) : KeepsTies column rows sigma :=
  ⟨h.perm, fun c hc => by simpa only [filter_tie_byColumn] using h.stable c hc⟩

/-- Rows in an order that keeps ties sort stably to the same rows. -/
theorem sortSpec_eq_of_keepsTies (h : StrictWeakOrder (· ∈ rows) (byColumn column))
    {rows' : List Row} (hk : KeepsTies column rows rows') :
    sortSpec (byColumn column) rows' = sortSpec (byColumn column) rows := by
  have hsorts' := sortsTo_sortSpec h fun r hr => hk.perm.subset hr
  have hsorts : SortsTo (· ∈ rows) (byColumn column) rows (sortSpec (byColumn column) rows') :=
    ⟨hsorts'.perm.trans hk.perm, hsorts'.sorted, fun c hc => by
      rw [hsorts'.stable c hc, filter_tie_byColumn, filter_tie_byColumn, hk.ties c hc]⟩
  exact hsorts.eq_sortSpec h fun _ hr => hr

end Order

/-! ### The ordered list -/

section Ordered

variable {rows : List Row} {s v : String}

/-- The ordered list, on any positions: it sorts the cells of the rows, or fails at the first row
that lacks a column. -/
theorem orderedColumnList_eq_sortByPosition :
    orderedColumnList rows s v =
      (firstMissing rows [s, v]).elim
        (sortByPosition wideEntries (rows.map fun r => (r.getD s, r.getD v)))
        fun e => .error (.malformed e) := by
  unfold orderedColumnList
  rw [mapM_require₂_eq s v fun x y _ => (x, y)]
  cases firstMissing rows [s, v] <;> rfl

/-- On transitive positions, the ordered list reads the value cells of the rows stably sorted by
position, or fails at the first row that lacks the position or the value column. -/
theorem orderedColumnList_eq (htrans : Value.TransitiveOn (rows.filterMap (·.get? s))) :
    orderedColumnList rows s v =
      (firstMissing rows [s, v]).elim (.ok ((sortSpec (byColumn s) rows).map (·.getD v)))
        fun e => .error (.malformed e) := by
  rw [orderedColumnList_eq_sortByPosition]
  cases h : firstMissing rows [s, v] with
  | some e => rfl
  | none =>
    exact sortByPosition_rows wideEntries htrans
      (getD_mem_filterMap_of_firstMissing h List.mem_cons_self) (·.getD v)

theorem transitiveOn_of_perm {rows' : List Row} (h : rows'.Perm rows)
    (htrans : Value.TransitiveOn (rows.filterMap (·.get? s))) :
    Value.TransitiveOn (rows'.filterMap (·.get? s)) :=
  htrans.mono fun _ hc => ((h.filterMap _).subset hc)

/-- Reordering the rows while keeping ties in order changes no list that is read. -/
theorem orderedColumnList_toOption_congr
    (htrans : Value.TransitiveOn (rows.filterMap (·.get? s))) {rows' : List Row}
    (hk : KeepsTies s rows rows') :
    (orderedColumnList rows' s v).toOption = (orderedColumnList rows s v).toOption := by
  rw [orderedColumnList_eq htrans, orderedColumnList_eq (transitiveOn_of_perm hk.perm htrans)]
  cases h : firstMissing rows [s, v] with
  | some e =>
    have hne : firstMissing rows' [s, v] ≠ none := fun h' => by
      rw [(firstMissing_eq_none_congr hk.perm).mp h'] at h
      cases h
    obtain ⟨e', h'⟩ := Option.ne_none_iff_exists'.mp hne
    rw [h']
    rfl
  | none =>
    rw [(firstMissing_eq_none_congr hk.perm).mpr h, sortSpec_eq_of_keepsTies
      (byColumn_strictWeakOrder htrans (getD_mem_filterMap_of_firstMissing h List.mem_cons_self)) hk]

/-- On transitive positions, the ordered list of a listing is the value column of its rows
stably sorted by position exactly when no row lacks either column, and otherwise the first row
that lacks one is the error. The list is the same for the rows in any order that keeps the rows
of equal positions in their order, among them the rows already stably sorted. -/
theorem orderedColumnList_spec (htrans : Value.TransitiveOn (rows.filterMap (·.get? s))) :
    (∀ out, orderedColumnList rows s v = .ok out ↔ firstMissing rows [s, v] = none ∧
        ∃ sigma, SortsTo (· ∈ rows) (byColumn s) rows sigma ∧ out = sigma.map (·.getD v)) ∧
    (∀ e, orderedColumnList rows s v = .error e ↔ (firstMissing rows [s, v]).map .malformed = some e) ∧
    (∀ rows', KeepsTies s rows rows' →
        (orderedColumnList rows' s v).toOption = (orderedColumnList rows s v).toOption) ∧
    (∀ sigma, SortsTo (· ∈ rows) (byColumn s) rows sigma →
        (orderedColumnList sigma s v).toOption = (orderedColumnList rows s v).toOption) := by
  refine ⟨fun out => ?_, fun e => ?_, fun rows' hk => orderedColumnList_toOption_congr htrans hk,
    fun sigma hsigma => orderedColumnList_toOption_congr htrans (keepsTies_of_sortsTo hsigma)⟩
  · rw [orderedColumnList_eq htrans, elim_eq_ok_iff]
    refine and_congr_right fun h => ?_
    have horder := byColumn_strictWeakOrder htrans
      (getD_mem_filterMap_of_firstMissing h List.mem_cons_self)
    constructor
    · rintro rfl
      exact ⟨_, sortsTo_sortSpec horder fun _ hr => hr, rfl⟩
    · rintro ⟨sigma, hsigma, rfl⟩
      rw [hsigma.eq_sortSpec horder fun _ hr => hr]
  · rw [orderedColumnList_eq htrans, elim_eq_error_iff]

/-- The rows of the ordered-list check in the source's tests: positions 2, 1 and 2. -/
theorem orderedColumnList_spec_three_rows :
    let rows := [Row.ofList [("key_sequence", .int 2), ("column_name", .text "B")],
      Row.ofList [("key_sequence", .int 1), ("column_name", .text "A")],
      Row.ofList [("key_sequence", .int 2), ("column_name", .text "B2")]]
    let s := "key_sequence"
    let v := "column_name"
    Value.TransitiveOn (rows.filterMap (·.get? s)) ∧
    (∀ out, orderedColumnList rows s v = .ok out ↔ firstMissing rows [s, v] = none ∧
        ∃ sigma, SortsTo (· ∈ rows) (byColumn s) rows sigma ∧ out = sigma.map (·.getD v)) ∧
    (∀ e, orderedColumnList rows s v = .error e ↔ (firstMissing rows [s, v]).map .malformed = some e) ∧
    (∀ rows', KeepsTies s rows rows' →
        (orderedColumnList rows' s v).toOption = (orderedColumnList rows s v).toOption) ∧
    (∀ sigma, SortsTo (· ∈ rows) (byColumn s) rows sigma →
        (orderedColumnList sigma s v).toOption = (orderedColumnList rows s v).toOption) := by
  intro rows s v
  have htrans : Value.TransitiveOn (rows.filterMap (·.get? s)) :=
    Value.transitiveOn_of_exact (by decide)
  exact ⟨htrans, orderedColumnList_spec htrans⟩

/-- Rows are checked in the order given: two rows that both lack the value column, in the other
order, fail at the other row, although neither order breaks a tie. -/
theorem orderedColumnList_error_follows_order :
    let first := Row.ofList [("key_sequence", .int 1)]
    let second := Row.ofList [("key_sequence", .int 2)]
    Value.TransitiveOn ([first, second].filterMap (·.get? "key_sequence")) ∧
      KeepsTies "key_sequence" [first, second] [second, first] ∧
      orderedColumnList [second, first] "key_sequence" "column_name" ≠
        orderedColumnList [first, second] "key_sequence" "column_name" := by
  intro first second
  refine ⟨Value.transitiveOn_of_exact (by decide), ⟨List.Perm.swap _ _ _, ?_⟩, ?_⟩
  · intro c hc
    simp only [List.mem_cons, List.not_mem_nil, or_false] at hc
    rcases hc with rfl | rfl <;> rfl
  · have hfirst : orderedColumnList [first, second] "key_sequence" "column_name" =
        .error (.malformed ⟨"column_name", .missing, first⟩) := rfl
    have hsecond : orderedColumnList [second, first] "key_sequence" "column_name" =
        .error (.malformed ⟨"column_name", .missing, second⟩) := rfl
    rw [hfirst, hsecond]
    intro h
    have hrow := congrArg (fun x : Except ListingError (List Value) => match x with
      | .error (.malformed e) => e.row.get? "key_sequence"
      | _ => none) h
    exact absurd hrow (by decide)

end Ordered

/-! ### Grouped lists -/

section Grouped

variable {rows : List Row} {g s v : String}

/-- Grouping fails at the first row that lacks the group or the position column, and otherwise
gives each group cell, in order of first occurrence, with its rows in position order. -/
theorem groupsByPosition_eq {cells : List Value} (hcells : Value.TransitiveOn cells)
    (hpos : ∀ r ∈ rows, (r.get? s).isSome → r.getD s ∈ cells) :
    groupsByPosition rows g s =
      (firstMissing rows [g, s]).elim
        (.ok ((firstSeen (rows.map (·.getD g))).map fun c => (c, groupOf rows g s c)))
        fun e => .error (.malformed e) := by
  cases h : firstMissing rows [g, s] with
  | some e =>
    unfold groupsByPosition tagRows
    rw [mapM_require₂_eq g s fun x y r => (x, y, r), h]
    rfl
  | none =>
    have hkeyed : Keyed rows g s := fun r hr =>
      ⟨firstMissing_eq_none_iff.mp h r hr g (by simp), firstMissing_eq_none_iff.mp h r hr s (by simp)⟩
    exact (groupsByPosition_eq_ok_iff hcells hpos).mpr ⟨hkeyed, rfl⟩

/-- Reading a column from the rows of each group fails at the first row, group after group, that
lacks it. -/
theorem mapM_groups_require_eq {κ : Type} (groups : List (κ × List Row)) (column : String) :
    groups.mapM (fun grp => grp.2.mapM (·.require column)) =
      (firstMissing (groups.flatMap Prod.snd) [column]).elim
        (.ok (groups.map fun grp => grp.2.map (·.getD column))) .error :=
  mapM_groups_eq _ _ _ groups fun _ _ _ _ => Row.require_eq column

/-- Every row falls in exactly one group. The group cells are the distinct cells of the column, in
another order. -/
theorem sum_length_groupOf :
    ((firstSeen (rows.map (·.getD g))).map fun c => (groupOf rows g s c).length).sum =
      rows.length := by
  have hcount : ∀ c, (groupOf rows g s c).length = (rows.map (·.getD g)).count c := by
    intro c
    rw [groupOf, sortSpec, List.length_mergeSort, List.count_eq_countP, List.countP_map,
      List.countP_eq_length_filter]
    rfl
  have hperm : (firstSeen (rows.map (·.getD g))).Perm (rows.map (·.getD g)).dedup :=
    firstSeen_perm_dedup _
  calc ((firstSeen (rows.map (·.getD g))).map fun c => (groupOf rows g s c).length).sum
      = ((rows.map (·.getD g)).dedup.map fun c => (rows.map (·.getD g)).count c).sum := by
        simp only [hcount]
        exact (hperm.map _).sum_eq
    _ = rows.length := by rw [List.sum_map_count_dedup_eq_length, List.length_map]

/-- The ordered list of the rows of one group cell, when it reads, is that group's list. -/
theorem orderedColumnList_filter_eq (htrans : Value.TransitiveOn (rows.filterMap (·.get? s)))
    (c : Value) {l : List Value} (h : orderedColumnList (rows.filter (·.getD g == c)) s v = .ok l) :
    l = (groupOf rows g s c).map (·.getD v) := by
  have htrans' : Value.TransitiveOn ((rows.filter (·.getD g == c)).filterMap (·.get? s)) :=
    htrans.mono fun _ hx => ((List.filter_sublist).filterMap _).subset hx
  rw [orderedColumnList_eq htrans'] at h
  exact (elim_eq_ok_iff.mp h).2.symm

/-- On transitive positions, grouped lists are read in two checks: every row for the group and
position columns in listing order, then every row for the value column in grouped order. -/
theorem groupedColumnLists_eq (htrans : Value.TransitiveOn (rows.filterMap (·.get? s))) :
    groupedColumnLists rows g s v =
      (firstMissing rows [g, s]).elim
        ((firstMissing ((firstSeen (rows.map (·.getD g))).flatMap (groupOf rows g s)) [v]).elim
          (.ok ((firstSeen (rows.map (·.getD g))).map fun c => (groupOf rows g s c).map (·.getD v)))
          fun e => .error (.malformed e))
        (fun e => .error (.malformed e)) := by
  unfold groupedColumnLists
  rw [groupsByPosition_eq htrans fun r hr hs => getD_mem_filterMap hr hs]
  cases firstMissing rows [g, s] with
  | some e => rfl
  | none =>
    simp only [Option.elim_none, bind, Except.bind, mapM_groups_require_eq, List.flatMap_map,
      List.map_map]
    cases firstMissing ((firstSeen (rows.map (·.getD g))).flatMap (groupOf rows g s)) [v] <;> rfl

/-- Grouped lists that are read are the value columns of the groups. -/
theorem groupedColumnLists_eq_ok (htrans : Value.TransitiveOn (rows.filterMap (·.get? s)))
    {lists : List (List Value)} (h : groupedColumnLists rows g s v = .ok lists) :
    lists = (firstSeen (rows.map (·.getD g))).map fun c => (groupOf rows g s c).map (·.getD v) := by
  rw [groupedColumnLists_eq htrans] at h
  cases hkeyed : firstMissing rows [g, s] with
  | some e => simp [hkeyed] at h
  | none =>
    rw [hkeyed, Option.elim_none] at h
    exact (elim_eq_ok_iff.mp h).2.symm

/-- The value columns of the groups are not empty and hold one cell per row. -/
theorem groupLists_ne_nil_and_sum :
    (∀ l ∈ (firstSeen (rows.map (·.getD g))).map (fun c => (groupOf rows g s c).map (·.getD v)),
      l ≠ []) ∧
    (((firstSeen (rows.map (·.getD g))).map fun c => (groupOf rows g s c).map (·.getD v)).map
      List.length).sum = rows.length := by
  refine ⟨fun l hl => ?_, ?_⟩
  · obtain ⟨c, hc, rfl⟩ := List.mem_map.mp hl
    exact mt List.map_eq_nil_iff.mp (groupOf_ne_nil hc)
  · rw [List.map_map]
    simpa [Function.comp_def] using sum_length_groupOf

/-- On transitive positions, the grouped lists of a listing fail at the first row, in listing
order, that lacks the group or the position column, and then at the first row, in grouped order,
that lacks the value column. Otherwise there is one list per group cell, in order of first
occurrence: the value column of the rows with that cell, stably sorted by position, which is the
ordered list of those rows. The lists are not empty and hold every row once. -/
theorem groupedColumnLists_spec (htrans : Value.TransitiveOn (rows.filterMap (·.get? s))) :
    groupedColumnLists rows g s v =
      (firstMissing rows [g, s]).elim
        ((firstMissing ((firstSeen (rows.map (·.getD g))).flatMap (groupOf rows g s)) [v]).elim
          (.ok ((firstSeen (rows.map (·.getD g))).map fun c => (groupOf rows g s c).map (·.getD v)))
          fun e => .error (.malformed e))
        (fun e => .error (.malformed e)) ∧
    (firstMissing rows [g, s] = none → ∀ c ∈ firstSeen (rows.map (·.getD g)), ∀ l,
      orderedColumnList (rows.filter (·.getD g == c)) s v = .ok l →
        l = (groupOf rows g s c).map (·.getD v)) ∧
    (∀ lists, groupedColumnLists rows g s v = .ok lists →
      (∀ l ∈ lists, l ≠ []) ∧ (lists.map List.length).sum = rows.length) := by
  refine ⟨groupedColumnLists_eq htrans, fun _ c _ l hl => orderedColumnList_filter_eq htrans c hl,
    fun lists hlists => ?_⟩
  rw [groupedColumnLists_eq_ok htrans hlists]
  exact groupLists_ne_nil_and_sum

/-- The interleaved constraints of the source's tests: `UK_1` at positions 2 and 1 around `UK_2`. -/
theorem groupedColumnLists_spec_interleaved :
    let rows := [Row.ofList [("constraint_name", .text "UK_1"), ("key_sequence", .int 2),
        ("column_name", .text "Y")],
      Row.ofList [("constraint_name", .text "UK_2"), ("key_sequence", .int 1),
        ("column_name", .text "P")],
      Row.ofList [("constraint_name", .text "UK_1"), ("key_sequence", .int 1),
        ("column_name", .text "X")]]
    let g := "constraint_name"
    let s := "key_sequence"
    let v := "column_name"
    Value.TransitiveOn (rows.filterMap (·.get? s)) ∧
    (groupedColumnLists rows g s v =
      (firstMissing rows [g, s]).elim
        ((firstMissing ((firstSeen (rows.map (·.getD g))).flatMap (groupOf rows g s)) [v]).elim
          (.ok ((firstSeen (rows.map (·.getD g))).map fun c => (groupOf rows g s c).map (·.getD v)))
          fun e => .error (.malformed e))
        (fun e => .error (.malformed e)) ∧
    (firstMissing rows [g, s] = none → ∀ c ∈ firstSeen (rows.map (·.getD g)), ∀ l,
      orderedColumnList (rows.filter (·.getD g == c)) s v = .ok l →
        l = (groupOf rows g s c).map (·.getD v)) ∧
    (∀ lists, groupedColumnLists rows g s v = .ok lists →
      (∀ l ∈ lists, l ≠ []) ∧ (lists.map List.length).sum = rows.length)) := by
  intro rows g s v
  have htrans : Value.TransitiveOn (rows.filterMap (·.get? s)) :=
    Value.transitiveOn_of_exact (by decide)
  exact ⟨htrans, groupedColumnLists_spec htrans⟩

end Grouped

end Listing

end Introspect
