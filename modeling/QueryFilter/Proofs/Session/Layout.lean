import Mathlib.Data.List.Nodup
import QueryFilter.Proofs.Json.Layout
import QueryFilter.Session.Format

/-!
# Other layouts of a session file

A session is written with every field under its first name. The same session is read
when, in any of the records that it holds, members are put in another order, members
that have their defaults are left out, and members are added under names that no field
goes by. The values that it serves may come in any order too.
-/

namespace QueryFilter

open Json

/-! ### Names -/

theorem Comparison.ofJson?_toJson (c : Comparison) : ofJson? c.toJson = some c := by
  cases c <;> decide +kernel

theorem Connective.ofJson?_toJson (c : Connective) : ofJson? c.toJson = some c := by
  cases c <;> decide +kernel

theorem JoinMode.ofJson?_toJson (m : JoinMode) : ofJson? m.toJson = some m := by
  cases m with
  | throughout connective => cases connective <;> decide +kernel
  | byRow => decide +kernel
  | byFormula => decide +kernel

theorem Direction.ofJson?_toJson (d : Direction) : ofJson? d.toJson = some d := by
  cases d <;> decide +kernel

theorem AddressPart.ofJson?_toJson (p : AddressPart) : ofJson? p.toJson = some p := by
  cases p <;> decide +kernel

/-! ### Records -/

namespace Choice

def layout : Layout :=
  .record [⟨"label", [], none, .fixed⟩, ⟨"value", [], none, .fixed⟩]

theorem faithful : Faithful layout toJson ofJson? where
  refl _ := .refl (.cons ⟨rfl, rfl⟩ (.cons ⟨rfl, rfl⟩ .nil))
  read_eq c later hlater := by
    obtain ⟨members, rfl, hfound⟩ := hlater.exists_holds (by decide)
    simp only [List.forall₂_cons] at hfound
    obtain ⟨hlabel, hvalue, -⟩ := hfound
    simp [ofJson?, record?, hlabel.required? .text rfl, hvalue.required? .text rfl]

end Choice

namespace Field

def layout : Layout :=
  .record [
    ⟨"label", [], none, .fixed⟩,
    ⟨"api_name", ["value", "apiName"], none, .fixed⟩,
    ⟨"data_type", ["dataType"], none, .fixed⟩,
    ⟨"picklist_options", ["picklistOptions"], some (.array []), .items Choice.layout⟩]

theorem faithful : Faithful layout toJson ofJson? where
  refl f := .refl <| .cons ⟨rfl, rfl⟩ <| .cons ⟨rfl, rfl⟩ <| .cons ⟨rfl, rfl⟩ <|
    .cons ⟨rfl, Choice.faithful.items.refl f.choices⟩ .nil
  read_eq f later hlater := by
    obtain ⟨members, rfl, hfound⟩ := hlater.exists_holds (by decide)
    simp only [List.forall₂_cons] at hfound
    obtain ⟨hlabel, hname, htype, hchoices, -⟩ := hfound
    simp [ofJson?, record?, hlabel.required? .text rfl, hname.required? .text rfl,
      htype.required? .text rfl, hchoices.defaulted? Choice.faithful.items [] rfl]

end Field

namespace SortKey

def layout : Layout :=
  .record [⟨"field", [], none, .fixed⟩, ⟨"direction", [], some (.string "ASC"), .fixed⟩]

theorem faithful : Faithful layout toJson ofJson? where
  refl _ := .refl <| .cons ⟨rfl, rfl⟩ <| .cons ⟨rfl, rfl⟩ .nil
  read_eq key later hlater := by
    obtain ⟨members, rfl, hfound⟩ := hlater.exists_holds (by decide)
    simp only [List.forall₂_cons] at hfound
    obtain ⟨hfield, hdirection, -⟩ := hfound
    have hnamed := Faithful.fixed Direction.ofJson?_toJson
    simp [ofJson?, record?, hfield.required? .text rfl,
      hdirection.defaulted? hnamed .ascending rfl]

end SortKey

namespace UserAddress

def layout : Layout :=
  .record [
    ⟨"billingState", [], some .null, .nullable .fixed⟩,
    ⟨"billingCountry", [], some .null, .nullable .fixed⟩,
    ⟨"billingPostalCode", [], some .null, .nullable .fixed⟩]

theorem faithful : Faithful layout toJson ofJson? where
  refl a :=
    have hpart := Faithful.text.nullable rfl
    .refl <| .cons ⟨rfl, hpart.refl a.state⟩ <| .cons ⟨rfl, hpart.refl a.country⟩ <|
      .cons ⟨rfl, hpart.refl a.postalCode⟩ .nil
  read_eq a later hlater := by
    obtain ⟨members, rfl, hfound⟩ := hlater.exists_holds (by decide)
    simp only [List.forall₂_cons] at hfound
    obtain ⟨hstate, hcountry, hpostalCode, -⟩ := hfound
    have hpart := Faithful.text.nullable rfl
    simp [ofJson?, record?, hstate.defaulted? hpart none rfl,
      hcountry.defaulted? hpart none rfl, hpostalCode.defaulted? hpart none rfl]

end UserAddress

namespace SavedRow

def layout : Layout :=
  .record [
    ⟨"field", [], none, .fixed⟩,
    ⟨"operator", [], some .null, .nullable .fixed⟩,
    ⟨"value", [], some (.string ""), .fixed⟩,
    ⟨"selectedValues", [], some (.array []), .items .fixed⟩,
    ⟨"condition", [], some (.string "AND"), .fixed⟩,
    ⟨"valueCriteria", [], some .null, .nullable .fixed⟩]

theorem faithful : Faithful layout toJson ofJson? where
  refl row :=
    have hcomparison := (Faithful.fixed Comparison.ofJson?_toJson).nullable rfl
    have hsource := (Faithful.fixed AddressPart.ofJson?_toJson).nullable rfl
    .refl <| .cons ⟨rfl, rfl⟩ <| .cons ⟨rfl, hcomparison.refl row.comparison⟩ <|
      .cons ⟨rfl, rfl⟩ <| .cons ⟨rfl, Faithful.text.items.refl row.selected⟩ <|
      .cons ⟨rfl, rfl⟩ <| .cons ⟨rfl, hsource.refl row.source⟩ .nil
  read_eq row later hlater := by
    obtain ⟨members, rfl, hfound⟩ := hlater.exists_holds (by decide)
    simp only [List.forall₂_cons] at hfound
    obtain ⟨hfield, hcomparison, hvalue, hselected, hjoiner, hsource, -⟩ := hfound
    have hcomparisons := (Faithful.fixed Comparison.ofJson?_toJson).nullable rfl
    have hsources := (Faithful.fixed AddressPart.ofJson?_toJson).nullable rfl
    have hjoiners := Faithful.fixed Connective.ofJson?_toJson
    simp [ofJson?, record?, hfield.required? .text rfl,
      hcomparison.defaulted? hcomparisons none rfl, hvalue.defaulted? .text "" rfl,
      hselected.defaulted? Faithful.text.items [] rfl, hjoiner.defaulted? hjoiners .and rfl,
      hsource.defaulted? hsources none rfl]

end SavedRow

/-! ### The values that a session serves -/

namespace ValueTable

def layout : Layout :=
  .table (.items Choice.layout)

/-- Entries for fields that a table does not have yet go to its end. -/
theorem entries_insert {table : ValueTable} {field : String}
    (hnew : field ∉ table.entries.map Prod.fst) (values : List Choice) :
    (table.insert field values).entries = table.entries ++ [(field, values)] := by
  have hput (entries : List (String × List Choice)) (hentries : field ∉ entries.map Prod.fst) :
      put field values entries = entries ++ [(field, values)] := by
    induction entries with
    | nil => rfl
    | cons entry rest ih =>
      rw [List.map_cons, List.mem_cons, not_or] at hentries
      rw [put, if_neg (Ne.symm hentries.1), ih hentries.2, List.cons_append]
  exact hput table.entries hnew

theorem entries_foldl_insert {table : ValueTable} {entries : List (String × List Choice)}
    (distinct : ((table.entries ++ entries).map Prod.fst).Nodup) :
    (entries.foldl (fun table entry => table.insert entry.1 entry.2) table).entries =
      table.entries ++ entries := by
  induction entries generalizing table with
  | nil => simp
  | cons entry rest ih =>
    have hnew : entry.1 ∉ table.entries.map Prod.fst := by
      simp only [List.map_append, List.nodup_append] at distinct
      exact fun hmem => distinct.2.2 _ hmem _ List.mem_cons_self rfl
    have hsplit : table.entries ++ entry :: rest =
        (table.insert entry.1 entry.2).entries ++ rest := by
      simp [entries_insert hnew]
    rw [hsplit] at distinct ⊢
    exact ih distinct

/-- Entries for different fields are kept as they are. -/
theorem entries_ofEntries {entries : List (String × List Choice)}
    (distinct : (entries.map Prod.fst).Nodup) : (ofEntries entries).entries = entries :=
  @entries_foldl_insert empty entries distinct

theorem find?_eq_some_iff {table : ValueTable} {field : String} {values : List Choice} :
    table.find? field = some values ↔ (field, values) ∈ table.entries := by
  rw [find?, List.lookup_eq_some_iff]
  constructor
  · rintro ⟨before, rest, hsplit, -⟩
    rw [hsplit]
    exact List.mem_append_right _ List.mem_cons_self
  · intro hmem
    obtain ⟨before, rest, hsplit⟩ := List.append_of_mem hmem
    refine ⟨before, rest, hsplit, fun entry hentry => ?_⟩
    have hdistinct := table.distinct
    rw [hsplit, List.map_append, List.nodup_append] at hdistinct
    have hne : entry.1 ≠ field :=
      hdistinct.2.2 _ (List.mem_map_of_mem hentry) _ List.mem_cons_self
    exact bne_iff_ne.mpr hne.symm

/-- The order of the entries does not matter to what a table serves. -/
theorem find?_of_perm {table other : ValueTable} (h : table.entries.Perm other.entries)
    (field : String) : table.find? field = other.find? field := by
  refine Option.ext fun values => ?_
  rw [find?_eq_some_iff, find?_eq_some_iff, h.mem_iff]

/-- How an entry of a table may be laid out. -/
def EntryLayout (entry : String × List Choice) (member : String × Json) : Prop :=
  Layout.Entry (.items Choice.layout) (entry.1, ofList Choice.toJson entry.2) member

theorem ofJson?_object {entries : List (String × List Choice)} {members : List (String × Json)}
    (h : List.Forall₂ EntryLayout entries members) :
    ofJson? (.object members) = some (ofEntries entries) := by
  have hread : (members.mapM fun member => do
      return (member.1, ← items? Choice.ofJson? member.2)) = some entries := by
    induction h with
    | nil => rfl
    | @cons entry member entries members hentry _ ih =>
      obtain ⟨hkey, hvalue⟩ := hentry
      have hvalues := Choice.faithful.items.read_eq entry.2 member.2 hvalue
      rw [List.mapM_cons, ih, hvalues, ← hkey]
      rfl
  exact congrArg (Option.bind · fun entries => some (ofEntries entries)) hread

/-- However a table is laid out, the same entries are read, in another order at most. -/
theorem exists_ofJson?_of_layout {table : ValueTable} {later : Json}
    (h : layout table.toJson later) :
    ∃ values, ofJson? later = some values ∧ values.entries.Perm table.entries := by
  generalize hwritten : table.toJson = written at h
  cases h with
  | @intro members kept later each order =>
    obtain rfl : table.entries.map (fun entry => (entry.1, ofList Choice.toJson entry.2)) =
      members := Json.object.inj hwritten
    rw [List.forall₂_map_left_iff] at each
    have hmoved : Relation.Comp List.Perm (List.Forall₂ EntryLayout) table.entries later := by
      rw [← List.forall₂_comp_perm_eq_perm_comp_forall₂]
      exact ⟨kept, each, order⟩
    obtain ⟨entries, hentries, hlater⟩ := hmoved
    have hdistinct : (entries.map Prod.fst).Nodup :=
      (hentries.map Prod.fst).nodup_iff.mp table.distinct
    refine ⟨ofEntries entries, ofJson?_object hlater, ?_⟩
    rw [entries_ofEntries hdistinct]
    exact hentries.symm

theorem ofJson?_toJson (table : ValueTable) : ofJson? table.toJson = some table := by
  have hwritten : List.Forall₂ EntryLayout table.entries
      (table.entries.map fun entry => (entry.1, ofList Choice.toJson entry.2)) := by
    rw [List.forall₂_map_right_iff, List.forall₂_same]
    exact fun entry _ => ⟨rfl, Choice.faithful.items.refl entry.2⟩
  have hread : ofJson? table.toJson = some (ofEntries table.entries) := ofJson?_object hwritten
  have hentries : (ofEntries table.entries).entries = table.entries :=
    entries_ofEntries table.distinct
  rw [hread]
  cases hsame : ofEntries table.entries
  rw [hsame] at hentries
  cases table
  cases hentries
  rfl

end ValueTable

/-! ### Sessions -/

namespace Session

/-- The members that a session is written with, where the values it serves are laid
out in a way of their own. -/
def slots (values : Layout) : List Slot := [
  ⟨"objectType", [], none, .fixed⟩,
  ⟨"fields", [], some (.array []), .items Field.layout⟩,
  ⟨"picklists", [], some (.object []), values⟩,
  ⟨"filters", [], some (.array []), .items SavedRow.layout⟩,
  ⟨"logic", [], some (.string "AND"), .fixed⟩,
  ⟨"customLogic", [], some (.string ""), .fixed⟩,
  ⟨"selectedFields", [], some (.array []), .items .fixed⟩,
  ⟨"orderBy", [], some .null, .nullable SortKey.layout⟩,
  ⟨"limit", [], some .null, .nullable .fixed⟩,
  ⟨"userContext", [], some UserAddress.empty.toJson, UserAddress.layout⟩]

def layout : Layout :=
  .record (slots ValueTable.layout)

theorem limit?_toNat (limit : UInt32) : limit? (.natural limit.toNat) = some limit := by
  rw [limit?, if_pos limit.toNat_lt_size, UInt32.ofNat_toNat]

theorem nodup_names (values : Layout) : ((slots values).flatMap Slot.names).Nodup := by
  change ((slots .fixed).flatMap Slot.names).Nodup
  decide

/-- All of a session but the values that it serves is read as it was written, in every
layout of the session; and the values are, if they are in theirs. -/
theorem exists_ofJson?_of_slots {s : Session} {values : Layout} {P : ValueTable → Prop}
    (hread : ∀ later, values s.values.toJson later →
      ∃ table, ValueTable.ofJson? later = some table ∧ P table)
    (hown : P s.values) {later : Json}
    (hlater : Layout.record (slots values) s.toJson later) :
    ∃ table, P table ∧ ofJson? later = some { s with values := table } := by
  obtain ⟨members, rfl, hfound⟩ := hlater.exists_holds (nodup_names values)
  simp only [slots, List.forall₂_cons] at hfound
  obtain ⟨hobject, hfields, hvalues, hrows, hmode, hformula, hcolumns, horder, hlimit, haddress,
    -⟩ := hfound
  have hmodes := Faithful.fixed JoinMode.ofJson?_toJson
  have horders := SortKey.faithful.nullable rfl
  have hlimits := (Faithful.fixed limit?_toNat).nullable rfl
  have hempty : some (Json.object []) = some s.values.toJson → P .empty := by
    intro hwritten
    have hsame : ValueTable.ofJson? s.values.toJson = some .empty := by
      rw [← Option.some.inj hwritten]
      rfl
    rw [ValueTable.ofJson?_toJson] at hsame
    rwa [← Option.some.inj hsame]
  obtain ⟨table, htable, hholds⟩ := hvalues.exists_defaulted? hread hempty 2
  refine ⟨table, hholds, ?_⟩
  simp [ofJson?, record?, hobject.required? .text rfl,
    hfields.defaulted? Field.faithful.items [] rfl, htable,
    hrows.defaulted? SavedRow.faithful.items [] rfl,
    hmode.defaulted? hmodes (.throughout .and) rfl, hformula.defaulted? .text "" rfl,
    hcolumns.defaulted? Faithful.text.items [] rfl, horder.defaulted? horders none rfl,
    hlimit.defaulted? hlimits none rfl, haddress.defaulted? UserAddress.faithful .empty rfl]

theorem slots_refl {s : Session} {values : Layout}
    (hvalues : values s.values.toJson s.values.toJson) :
    Layout.record (slots values) s.toJson s.toJson :=
  have horders := SortKey.faithful.nullable rfl
  have hlimits := (Faithful.fixed limit?_toNat).nullable rfl
  .refl <| .cons ⟨rfl, rfl⟩ <| .cons ⟨rfl, Field.faithful.items.refl s.fields⟩ <|
    .cons ⟨rfl, hvalues⟩ <| .cons ⟨rfl, SavedRow.faithful.items.refl s.rows⟩ <|
    .cons ⟨rfl, rfl⟩ <| .cons ⟨rfl, rfl⟩ <|
    .cons ⟨rfl, Faithful.text.items.refl s.columns⟩ <|
    .cons ⟨rfl, horders.refl s.order⟩ <| .cons ⟨rfl, hlimits.refl s.limit⟩ <|
    .cons ⟨rfl, UserAddress.faithful.refl s.address⟩ .nil

/-- A session that has been written is read as it was, and so it is in every other layout:
then the values that it serves may be found in another order, and nothing else changes. -/
theorem read_of_layout (s : Session) :
    ofJson? s.toJson = some s ∧
      ∀ later, layout s.toJson later → ∃ values : ValueTable,
        (∀ field, values.find? field = s.values.find? field) ∧
          ofJson? later = some { s with values := values } := by
  constructor
  · have hread : ∀ later, Layout.fixed s.values.toJson later →
        ∃ table, ValueTable.ofJson? later = some table ∧ table = s.values := by
      rintro later rfl
      exact ⟨s.values, s.values.ofJson?_toJson, rfl⟩
    obtain ⟨table, rfl, hsession⟩ := exists_ofJson?_of_slots hread rfl (slots_refl rfl)
    exact hsession
  · intro later hlater
    refine exists_ofJson?_of_slots (fun laid hlaid => ?_) (fun _ => rfl) hlater
    obtain ⟨table, htable, horder⟩ := ValueTable.exists_ofJson?_of_layout hlaid
    exact ⟨table, htable, ValueTable.find?_of_perm horder⟩

/-- A session with its members, those of its row and those of the values that it serves
the other way round, without what has its default, and with a note in the row. -/
theorem read_of_layout_reversed :
    let table : ValueTable := .ofEntries [("Type", [⟨"Customer", "customer"⟩]), ("Rating", [])]
    let s : Session := ⟨"Account", [], table, [⟨"Name", some .like, "a", [], .and, none⟩],
      .throughout .and, "", ["Name"], none, some 5, .empty⟩
    let row : Json := .object [("note", .null), ("value", .string "a"),
      ("operator", .string "LIKE"), ("field", .string "Name")]
    let choice : Json := .object [("value", .string "customer"), ("label", .string "Customer")]
    let values : Json := .object [("Rating", .array []), ("Type", .array [choice])]
    let later : Json := .object [("limit", .natural 5),
      ("selectedFields", .array [.string "Name"]), ("filters", .array [row]),
      ("picklists", values), ("objectType", .string "Account")]
    layout s.toJson later ∧ ∃ values : ValueTable,
      (∀ field, values.find? field = table.find? field) ∧
        ofJson? later = some { s with values := values } := by
  intro table s row choice values later
  have hchoice : Choice.layout (Choice.toJson ⟨"Customer", "customer"⟩) choice :=
    @Layout.record.intro _ _ _ [] _ (.kept rfl (.kept rfl .nil)) (by simp)
      (List.reverse_perm _).symm
  have hvalues : ValueTable.layout table.toJson values :=
    @Layout.table.intro _ _ [("Type", .array [choice]), ("Rating", .array [])] _
      (.cons ⟨rfl, .intro (.cons hchoice .nil)⟩ (.cons ⟨rfl, .intro .nil⟩ .nil))
      (List.reverse_perm _).symm
  have hrow : SavedRow.layout (SavedRow.toJson ⟨"Name", some .like, "a", [], .and, none⟩) row :=
    @Layout.record.intro _ _ _ [("note", .null)] _
      (.kept rfl <| .kept (.present nofun rfl) <| .kept rfl <| .leftOut rfl <|
        .leftOut rfl <| .leftOut rfl .nil)
      (by decide) (List.reverse_perm _).symm
  have hlater : layout s.toJson later :=
    @Layout.record.intro _ _ _ [] _
      (.kept rfl <| .leftOut rfl <| .kept hvalues <| .kept (.intro (.cons hrow .nil)) <|
        .leftOut rfl <| .leftOut rfl <| .kept (.intro (.cons rfl .nil)) <| .leftOut rfl <|
        .kept (.present nofun rfl) <| .leftOut rfl .nil)
      (by simp) (List.reverse_perm _).symm
  exact ⟨hlater, (read_of_layout s).2 later hlater⟩

end Session
end QueryFilter
