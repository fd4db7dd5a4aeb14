import Mathlib.Data.List.Sort
import QueryFilter.Proofs.Sheet.Body
import QueryFilter.Proofs.Sheet.Delivery

/-!
# Joined rows

Where no formula joins the rows, a condition is what the complete rows state, one after
another. The rows may be kept in a table under the numbers they bear, for these count
up without gaps: no condition is lost, repeated or moved. An incomplete row does not
show, so it makes no difference if it is removed, emptied or joined otherwise, and nor
does the joiner of the first complete row.
-/

namespace QueryFilter
namespace Sheet

/-! ### Rows by number -/

/-- A table made from entries in the order of their keys lists them as they are. -/
theorem toList_ofList {α : Type} {entries : List (Nat × α)}
    (h : entries.Pairwise fun a b => a.1 < b.1) :
    (Std.TreeMap.ofList entries).toList = entries := by
  have hordered := Std.TreeMap.ordered_keys_toList (t := Std.TreeMap.ofList entries)
  simp only [Nat.compare_eq_lt] at hordered
  have hdistinct : entries.Pairwise fun a b => ¬ compare a.1 b.1 = .eq :=
    h.imp fun hlt heq => Nat.ne_of_lt hlt (Nat.compare_eq_eq.mp heq)
  have : Std.Antisymm fun a b : Nat × α => a.1 < b.1 :=
    ⟨fun _ _ hab hba => absurd hab (Nat.lt_asymm hba)⟩
  have : Std.Irrefl fun a b : Nat × α => a.1 < b.1 := ⟨fun _ => Nat.lt_irrefl _⟩
  have hfound {key : Nat} {value : α} (hmem : (key, value) ∈ entries) :
      (Std.TreeMap.ofList entries)[key]? = some value :=
    Std.TreeMap.getElem?_ofList_of_mem (Nat.compare_eq_eq.mpr rfl) hdistinct hmem
  refine hordered.eq_of_mem_iff h fun entry => ?_
  obtain ⟨key, value⟩ := entry
  rw [Std.TreeMap.mem_toList_iff_getElem?_eq_some]
  refine ⟨fun hvalue => ?_, hfound⟩
  by_cases hkey : ∃ other, (key, other) ∈ entries
  · obtain ⟨other, hother⟩ := hkey
    rw [hfound hother] at hvalue
    cases hvalue
    exact hother
  · have habsent : (entries.map Prod.fst).contains key = false := by
      simpa using fun other => not_exists.mp hkey other
    rw [Std.TreeMap.getElem?_ofList_of_contains_eq_false habsent] at hvalue
    cases hvalue

/-- The joiners and fragments of the complete rows under the numbers of the rows. Of two
rows with the same number, the table would keep one. -/
def table (s : Sheet) : Std.TreeMap Nat (Connective × String) :=
  .ofList (s.complete.map fun row => (row.number, row.joiner, row.fragment))

/-- The text of the condition that a table of rows gives. -/
def tabledBody (s : Sheet) : Arrangement → Except Formula.Flaw String
  | .throughout connective =>
    .ok ((" " ++ connective.keyword).intercalate (s.table.toList.map (·.2.2)))
  | .byRow =>
    match s.table.toList with
    | [] => .ok ""
    | first :: rest =>
      .ok (first.2.2 ++ String.join (rest.map fun entry => " " ++ entry.2.1.keyword ++ entry.2.2))
  | .byFormula f =>
    match f.numbersFlaw? s.size with
    | some flaw => .error flaw
    | none => (f.fill fun number => s.table[number]?.map (·.2)).map (" " ++ ·)

/-- The condition that a table of rows gives. -/
def tabledClause (s : Sheet) (arrangement : Arrangement) : Except Formula.Error Clause :=
  if s.table.isEmpty then .ok .empty
  else
    match s.tabledBody arrangement with
    | .error flaw => .error (.conditions flaw)
    | .ok body => .ok ⟨body, true⟩

section Table

variable {s : Sheet} (hs : s.InOrder)
include hs

theorem InOrder.ascending : s.rows.Pairwise fun a b => a.number < b.number := by
  refine List.pairwise_iff_getElem.mpr fun i j hi hj hlt => ?_
  rw [hs.numbered i _ (List.getElem?_eq_getElem hi), hs.numbered j _ (List.getElem?_eq_getElem hj)]
  omega

theorem toList_table :
    s.table.toList = s.complete.map fun row => (row.number, row.joiner, row.fragment) := by
  refine toList_ofList (List.pairwise_map.mpr ?_)
  exact hs.ascending.sublist List.filter_sublist

theorem getElem?_table (number : Nat) :
    s.table[number]? = (s.completeRow? number).map fun row => (row.joiner, row.fragment) := by
  apply Option.ext
  intro entry
  rw [← Std.TreeMap.mem_toList_iff_getElem?_eq_some, toList_table hs, List.mem_map,
    Option.map_eq_some_iff]
  constructor
  · rintro ⟨row, hrow, heq⟩
    obtain ⟨rfl, rfl⟩ := Prod.mk.inj heq
    exact ⟨row, (completeRow?_eq_some_iff hs).mpr ⟨hrow, rfl⟩, rfl⟩
  · rintro ⟨row, hrow, rfl⟩
    obtain ⟨hmem, rfl⟩ := (completeRow?_eq_some_iff hs).mp hrow
    exact ⟨row, hmem, rfl⟩

theorem tabledBody_eq (arrangement : Arrangement) :
    s.tabledBody arrangement = s.body arrangement := by
  cases arrangement with
  | throughout connective =>
    rw [tabledBody, toList_table hs, List.map_map, body]
    rfl
  | byRow =>
    rw [tabledBody, toList_table hs, body]
    cases s.complete with
    | nil => rfl
    | cons first rest => simp [joinFragments, Function.comp_def]
  | byFormula f =>
    have hfill : (fun number => s.table[number]?.map (·.2)) = s.fragment? := by
      funext number
      rw [getElem?_table hs, fragment?_eq hs, Option.map_map]
      rfl
    rw [tabledBody, hfill]
    rfl

/-- Keeping the rows in a table under their numbers changes no condition. -/
theorem tabledClause_eq (arrangement : Arrangement) :
    s.tabledClause arrangement = s.clause arrangement := by
  have hempty : s.table.isEmpty = s.complete.isEmpty := by
    rw [← Std.TreeMap.isEmpty_toList, toList_table hs, List.isEmpty_map]
  rw [tabledClause, hempty, tabledBody_eq hs]
  rfl

end Table

/-! ### Rows that do not show -/

/-- Two sheets that state the same condition wherever no formula joins the rows. -/
structure JoinedAlike (s t : Sheet) : Prop where
  throughout : ∀ connective, t.clause (.throughout connective) = s.clause (.throughout connective)
  byRow : t.clause .byRow = s.clause .byRow

/-- Joined rows show the fragment of the first and the joiners and fragments of the others. -/
theorem joinedAlike_of_shown {s t : Sheet}
    (hfirst : t.complete.head?.map Row.fragment = s.complete.head?.map Row.fragment)
    (hrest : t.complete.tail.map (fun row => (row.joiner, row.fragment)) =
      s.complete.tail.map fun row => (row.joiner, row.fragment)) : s.JoinedAlike t := by
  have hjoined (word : Connective → String) :
      joinFragments (fun row => word row.joiner) t.complete =
        joinFragments (fun row => word row.joiner) s.complete := by
    have hrest' := congrArg (List.map fun shown => word shown.1 ++ shown.2) hrest
    rw [List.map_map, List.map_map] at hrest'
    cases ht : t.complete <;> cases hs : s.complete <;>
      simp_all [joinFragments, Function.comp_def]
  have hnone : t.complete = [] ↔ s.complete = [] := by
    rw [← List.head?_eq_none_iff, ← List.head?_eq_none_iff, ← Option.map_eq_none_iff, hfirst,
      Option.map_eq_none_iff]
  by_cases h : s.complete = []
  · constructor <;>
      simp only [clause_of_complete_eq_nil h, clause_of_complete_eq_nil (hnone.mpr h), implies_true]
  · have h' : t.complete ≠ [] := fun hnil => h (hnone.mp hnil)
    constructor
    · intro connective
      rw [clause_throughout h, clause_throughout h', hjoined fun _ => " " ++ connective.keyword]
    · rw [clause_byRow h, clause_byRow h', hjoined fun joiner => " " ++ joiner.keyword]

theorem joinedAlike_of_map_eq {s t : Sheet}
    (h : t.complete.map (fun row => (row.joiner, row.fragment)) =
      s.complete.map fun row => (row.joiner, row.fragment)) : s.JoinedAlike t := by
  refine joinedAlike_of_shown ?_ ?_
  · have hfirst := congrArg (fun shown => shown.head?.map Prod.snd) h
    rw [List.head?_map, List.head?_map, Option.map_map, Option.map_map] at hfirst
    exact hfirst
  · simpa using congrArg List.tail h

/-- Numbering rows anew changes nothing that they show. -/
theorem map_complete_renumber (rows : List Row) :
    ((renumber rows).filter Row.isComplete).map (fun row => (row.joiner, row.fragment)) =
      (rows.filter Row.isComplete).map fun row => (row.joiner, row.fragment) := by
  have hrows : rows.zipIdx.map Prod.fst = rows := List.zipIdx_map_fst 0 rows
  conv_rhs => rw [← hrows]
  rw [renumber, List.mapIdx_eq_zipIdx_map, List.filter_map, List.filter_map, List.map_map,
    List.map_map]
  rfl

section Around

variable {s : Sheet} {index : Nat} {row : Row} (hrow : s.rows[index]? = some row)
include hrow

theorem edit_joinBy (schema : Schema) (joiner : Connective) :
    s.edit schema (.joinBy index joiner) =
      ({ s with rows := s.rows.set index { row with joiner := joiner } }, .ok none) := by
  rw [edit, joinBy, update_of_some hrow]

theorem edit_clear (schema : Schema) :
    s.edit schema (.clear index) = ({ s with rows := s.rows.set index row.clear }, .ok none) := by
  rw [edit, clear, update_of_some hrow]

theorem edit_remove (schema : Schema) :
    s.edit schema (.remove index) =
      (if s.size = 1 then { s with rows := s.rows.set index row.clear }
        else { s with rows := renumber (s.rows.eraseIdx index) }, .ok none) := by
  have hlt : index < s.size := (List.getElem?_eq_some_iff.mp hrow).1
  by_cases hone : s.size = 1
  · rw [edit, remove, if_pos hone, if_pos hone, clear, update_of_some hrow]
  · rw [edit, remove, if_neg hone, if_neg hone, if_pos hlt]

theorem complete_around :
    s.complete = (s.rows.take index).filter Row.isComplete ++
      (row :: s.rows.drop (index + 1)).filter Row.isComplete := by
  obtain ⟨hlt, rfl⟩ := List.getElem?_eq_some_iff.mp hrow
  rw [complete, ← List.filter_append, ← List.drop_eq_getElem_cons hlt, List.take_append_drop]

theorem complete_set (later : Row) :
    ({ s with rows := s.rows.set index later } : Sheet).complete =
      (s.rows.take index).filter Row.isComplete ++
        (later :: s.rows.drop (index + 1)).filter Row.isComplete := by
  have hlt := (List.getElem?_eq_some_iff.mp hrow).1
  rw [complete, List.set_eq_take_append_cons_drop, if_pos hlt, List.filter_append]

/-- The first complete row may be joined otherwise. -/
theorem joinedAlike_joinBy (hfirst : ∀ earlier ∈ s.rows.take index, earlier.isComplete = false)
    (joiner : Connective) :
    s.JoinedAlike { s with rows := s.rows.set index { row with joiner := joiner } } := by
  have hnone : (s.rows.take index).filter Row.isComplete = [] :=
    List.filter_eq_nil_iff.mpr fun earlier hearlier => by simp [hfirst earlier hearlier]
  have hsame : ({ row with joiner := joiner } : Row).isComplete = row.isComplete := rfl
  apply joinedAlike_of_shown
  · rw [complete_set hrow, complete_around hrow, hnone, List.filter_cons, List.filter_cons, hsame]
    split_ifs <;> rfl
  · rw [complete_set hrow, complete_around hrow, hnone, List.filter_cons, List.filter_cons, hsame]
    split_ifs <;> rfl

section Incomplete

variable (hincomplete : row.isComplete = false)
include hincomplete

theorem joinedAlike_set {later : Row} (hlater : later.isComplete = false) :
    s.JoinedAlike { s with rows := s.rows.set index later } := by
  apply joinedAlike_of_map_eq
  rw [complete_set hrow, complete_around hrow, List.filter_cons_of_neg (by simp [hlater]),
    List.filter_cons_of_neg (by simp [hincomplete])]

theorem joinedAlike_eraseIdx :
    s.JoinedAlike { s with rows := renumber (s.rows.eraseIdx index) } := by
  apply joinedAlike_of_map_eq
  rw [complete_around hrow, complete, map_complete_renumber, List.eraseIdx_eq_take_drop_succ,
    List.filter_append, List.filter_cons_of_neg (by simp [hincomplete])]

/-- An incomplete row may be removed, emptied or joined otherwise. -/
theorem exists_joinedAlike (schema : Schema) (joiner : Connective) {change : Edit}
    (h : change ∈ [.remove index, .clear index, .joinBy index joiner]) :
    ∃ later, s.edit schema change = (later, .ok none) ∧ s.JoinedAlike later := by
  have hclear : s.JoinedAlike { s with rows := s.rows.set index row.clear } :=
    joinedAlike_set hrow hincomplete rfl
  simp only [List.mem_cons, List.not_mem_nil, or_false] at h
  rcases h with rfl | rfl | rfl
  · refine ⟨_, edit_remove hrow schema, ?_⟩
    split_ifs
    · exact hclear
    · exact joinedAlike_eraseIdx hrow hincomplete
  · exact ⟨_, edit_clear hrow schema, hclear⟩
  · exact ⟨_, edit_joinBy hrow schema joiner, joinedAlike_set hrow hincomplete hincomplete⟩

end Incomplete

end Around

/-! ### Conditions -/

/-- A condition holds something exactly if some row is complete, and exactly then it has a body. -/
theorem isConditional_iff {s : Sheet} {arrangement : Arrangement} {clause : Clause}
    (hclause : s.clause arrangement = .ok clause) :
    (clause.isConditional = true ↔ ∃ row ∈ s.rows, row.isComplete = true) ∧
      (clause.isConditional = true ↔ clause.body ≠ "") := by
  by_cases h : s.complete = []
  · rw [clause_of_complete_eq_nil h] at hclause
    cases hclause
    simp [← complete_ne_nil_iff, h, Clause.empty]
  · have hbody : clause.isConditional = true ∧ clause.body ≠ "" := by
      cases arrangement with
      | throughout connective =>
        rw [clause_throughout h] at hclause
        cases hclause
        exact ⟨rfl, joinFragments_ne_empty h _⟩
      | byRow =>
        rw [clause_byRow h] at hclause
        cases hclause
        exact ⟨rfl, joinFragments_ne_empty h _⟩
      | byFormula f =>
        rw [clause_byFormula_eq_ok h hclause]
        exact ⟨rfl, by simp⟩
    simp [hbody, ← complete_ne_nil_iff, h]

theorem clause_throughout_eq (s : Sheet) (connective : Connective) :
    s.clause (.throughout connective) =
      .ok ⟨(" " ++ connective.keyword).intercalate (s.complete.map Row.fragment),
        !s.complete.isEmpty⟩ := by
  by_cases h : s.complete = []
  · rw [clause_of_complete_eq_nil h, h]
    rfl
  · rw [clause_throughout h, intercalate_fragments]
    simp [h]

theorem clause_byRow_eq (s : Sheet) :
    s.clause .byRow =
      .ok ⟨joinFragments (fun row => " " ++ row.joiner.keyword) s.complete,
        !s.complete.isEmpty⟩ := by
  by_cases h : s.complete = []
  · rw [clause_of_complete_eq_nil h, h]
    rfl
  · rw [clause_byRow h]
    simp [h]

/-- After any events, joined rows state what the complete ones state, each once and in
order, also if they are kept under their numbers. Nothing else about the rows shows, and
of the first complete one not even the joiner. -/
theorem joined_of_run (events : List Event) :
    let s := new.after events
    (s.table.toList = (s.complete.map fun row => (row.number, row.joiner, row.fragment)) ∧
      ∀ arrangement, s.tabledClause arrangement = s.clause arrangement) ∧
    (∀ connective : Connective, s.clause (.throughout connective) =
      .ok ⟨(" " ++ connective.keyword).intercalate (s.complete.map Row.fragment),
        !s.complete.isEmpty⟩) ∧
    s.clause .byRow = .ok ⟨joinFragments (fun row => " " ++ row.joiner.keyword) s.complete,
      !s.complete.isEmpty⟩ ∧
    (∀ arrangement clause, s.clause arrangement = .ok clause →
      (clause.isConditional = true ↔ ∃ row ∈ s.rows, row.isComplete = true) ∧
        (clause.isConditional = true ↔ clause.body ≠ "")) ∧
    (∀ (schema : Schema) (index : Nat) (row : Row) (joiner : Connective),
      s.rows[index]? = some row → row.isComplete = false →
      ∀ change ∈ [Edit.remove index, .clear index, .joinBy index joiner],
        ∃ later, s.edit schema change = (later, .ok none) ∧ s.JoinedAlike later) ∧
    ∀ (schema : Schema) (index : Nat) (row : Row) (joiner : Connective),
      s.rows[index]? = some row →
      (∀ earlier ∈ s.rows.take index, earlier.isComplete = false) →
      ∃ later, s.edit schema (.joinBy index joiner) = (later, .ok none) ∧ s.JoinedAlike later := by
  intro s
  have hs : s.InOrder := inOrder_new.after events
  refine ⟨⟨toList_table hs, tabledClause_eq hs⟩, s.clause_throughout_eq, s.clause_byRow_eq,
    fun _ _ => isConditional_iff, ?hidden, ?first⟩
  case hidden =>
    intro schema index row joiner hrow hincomplete change
    exact exists_joinedAlike hrow hincomplete schema joiner
  case first =>
    intro schema index row joiner hrow hfirst
    exact ⟨_, edit_joinBy hrow schema joiner, joinedAlike_joinBy hrow hfirst joiner⟩

/-- The second of three rows is incomplete. It may be removed, and the first may be joined
otherwise; the condition is that of the first row and the third. -/
theorem joined_of_run_three_rows :
    let schema : Schema := ⟨"Account", [⟨"Name", "Name", "String", []⟩]⟩
    let s := new.after [.edit schema .add, .edit schema .add, .edit schema (.pointAt 0 "Name"),
      .edit schema (.compareBy 0 .equal), .edit schema (.enter 0 "a"),
      .edit schema (.joinBy 1 .or), .edit schema (.pointAt 2 "Name"),
      .edit schema (.compareBy 2 .like), .edit schema (.enter 2 "b")]
    s.clause .byRow = .ok ⟨" Name = 'a' AND Name LIKE '%b%'", true⟩ ∧
      (∃ later, s.edit schema (.remove 1) = (later, .ok none) ∧ s.JoinedAlike later) ∧
      ∃ later, s.edit schema (.joinBy 0 .or) = (later, .ok none) ∧ s.JoinedAlike later := by
  intro schema s
  have hrow₀ : s.rows[0]? =
      some ⟨0, 1, 1, "Name", some .equal, "a", .and, .single .string⟩ := by decide +kernel
  have hrow₁ : s.rows[1]? = some { Row.blank 1 2 with joiner := .or } := by decide +kernel
  obtain ⟨_, _, hbyRow, _, hhidden, hfirst⟩ := joined_of_run [.edit schema .add, .edit schema .add,
    .edit schema (.pointAt 0 "Name"), .edit schema (.compareBy 0 .equal),
    .edit schema (.enter 0 "a"), .edit schema (.joinBy 1 .or), .edit schema (.pointAt 2 "Name"),
    .edit schema (.compareBy 2 .like), .edit schema (.enter 2 "b")]
  refine ⟨hbyRow.trans (by decide +kernel), ?removed, ?joined⟩
  case removed => exact hhidden schema 1 _ .and hrow₁ rfl _ List.mem_cons_self
  case joined => exact hfirst schema 0 _ .or hrow₀ fun _ h => absurd h List.not_mem_nil

end Sheet
end QueryFilter
