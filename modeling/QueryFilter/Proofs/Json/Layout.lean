import Mathlib.Data.List.Perm.Basic
import QueryFilter.Json.Record

/-!
# Other layouts of a written value

A written value can be laid out in other ways: the members of an object in another
order, a member left out where it has its default, and members added under names that
mean nothing. A layout says which forms stand for a written value, and the layouts of
the parts of a value make up the layout of the whole. A way of writing is faithful
under a layout if whatever stands for a written value is read as that value.
-/

namespace QueryFilter
namespace Json

/-- The forms that stand for a written value. -/
abbrev Layout := Json → Json → Prop

/-- A member that the object for a record has when it is written. -/
structure Slot where
  name : String
  aliases : List String
  /-- The written default of a member that may be left out. -/
  default? : Option Json
  layout : Layout

namespace Slot

abbrev names (slot : Slot) : List String :=
  slot.name :: slot.aliases

/-- Whether a member is read for a slot. -/
def knows (slot : Slot) (member : String × Json) : Bool :=
  slot.names.contains member.1

end Slot

namespace Layout

/-- A value that is written in one way only. -/
def fixed : Layout := Eq

inductive items (layout : Layout) : Json → Json → Prop
  | intro {values later : List Json} (each : List.Forall₂ layout values later) :
    items layout (array values) (array later)

inductive nullable (layout : Layout) : Json → Json → Prop
  | absent : nullable layout null null
  | present {value later : Json} (known : value ≠ null) (value_later : layout value later) :
    nullable layout value later

/-- A member under the same key with its value laid out. -/
def Entry (layout : Layout) (member later : String × Json) : Prop :=
  member.1 = later.1 ∧ layout member.2 later.2

/-- An object whose keys are data, with its members in any order. -/
inductive table (layout : Layout) : Json → Json → Prop
  | intro {members kept later : List (String × Json)}
    (each : List.Forall₂ (Entry layout) members kept) (order : kept.Perm later) :
    table layout (object members) (object later)

/-- The members of a record, some of those that have their defaults left out. -/
inductive Keeps : List Slot → List (String × Json) → List (String × Json) → Prop
  | nil : Keeps [] [] []
  | kept {slot : Slot} {slots : List Slot} {value later : Json}
    {members kept : List (String × Json)} (value_later : slot.layout value later)
    (rest : Keeps slots members kept) :
    Keeps (slot :: slots) ((slot.name, value) :: members) ((slot.name, later) :: kept)
  | leftOut {slot : Slot} {slots : List Slot} {value : Json}
    {members kept : List (String × Json)} (default : slot.default? = some value)
    (rest : Keeps slots members kept) :
    Keeps (slot :: slots) ((slot.name, value) :: members) kept

/-- An object for a record, with members in any order and among others, of which no
field of the record goes by the name. -/
inductive record (slots : List Slot) : Json → Json → Prop
  | intro {members kept others later : List (String × Json)} (keeps : Keeps slots members kept)
    (unknown : ∀ member ∈ others, member.1 ∉ slots.flatMap Slot.names)
    (order : (kept ++ others).Perm later) :
    record slots (object members) (object later)

end Layout

/-! ### What a reader finds -/

/-- What is found for a slot in which a value was written: the value as it is laid out
now, or nothing in place of the default. -/
inductive Slot.Holds (slot : Slot) (value : Json) : List (String × Json) → Prop
  | kept {later : Json} (value_later : slot.layout value later) :
    slot.Holds value [(slot.name, later)]
  | leftOut (default : slot.default? = some value) : slot.Holds value []

theorem Slot.Holds.perm {slot : Slot} {value : Json} {found later : List (String × Json)}
    (h : slot.Holds value found) (order : found.Perm later) : slot.Holds value later := by
  cases h with
  | kept value_later =>
    rw [List.perm_singleton.mp order.symm]
    exact .kept value_later
  | leftOut default =>
    rw [order.symm.eq_nil]
    exact .leftOut default

namespace Layout

theorem Keeps.mem_names {slots : List Slot} {members kept : List (String × Json)}
    (h : Keeps slots members kept) : ∀ member ∈ kept, member.1 ∈ slots.flatMap Slot.names := by
  induction h with
  | nil => simp
  | @kept slot slots value later members kept _ _ ih =>
    rintro member (_ | ⟨_, hmember⟩)
    · exact List.mem_append_left _ List.mem_cons_self
    · exact List.mem_append_right _ (ih member hmember)
  | leftOut _ _ ih => exact fun member hmember => List.mem_append_right _ (ih member hmember)

/-- No slot knows a member whose key is none of its names. -/
theorem filter_knows_eq_nil {slot : Slot} {members : List (String × Json)}
    (h : ∀ member ∈ members, member.1 ∉ slot.names) : members.filter slot.knows = [] := by
  rw [List.filter_eq_nil_iff]
  intro member hmember hknows
  exact h member hmember (List.contains_iff_mem.mp hknows)

/-- No slot knows a member that was kept for others. -/
theorem Keeps.filter_knows_eq_nil {slot : Slot} {slots : List Slot}
    {members kept : List (String × Json)} (h : Keeps slots members kept)
    (apart : ∀ a ∈ slot.names, ∀ b ∈ slots.flatMap Slot.names, a ≠ b) :
    kept.filter slot.knows = [] :=
  Layout.filter_knows_eq_nil fun member hmember hname =>
    apart _ hname _ (h.mem_names member hmember) rfl

/-- Names are told apart, so each slot finds its own member and no other. -/
theorem Keeps.holds {slots : List Slot} {members kept later : List (String × Json)}
    (h : Keeps slots members kept) (distinct : (slots.flatMap Slot.names).Nodup)
    (same : ∀ slot ∈ slots, (kept.filter slot.knows).Perm (later.filter slot.knows)) :
    List.Forall₂ (fun slot member => Slot.Holds slot member.2 (later.filter slot.knows))
      slots members := by
  induction h with
  | nil => exact .nil
  | @kept slot slots value laid members kept value_later rest ih =>
    rw [List.flatMap_cons, List.nodup_append] at distinct
    obtain ⟨-, hrest, hapart⟩ := distinct
    refine .cons ?_ (ih hrest fun other hother => ?_)
    · have hown : slot.knows (slot.name, laid) = true := by
        simp [Slot.knows, Slot.names]
      have hhead := same slot List.mem_cons_self
      rw [List.filter_cons_of_pos hown, rest.filter_knows_eq_nil hapart] at hhead
      exact (Slot.Holds.kept value_later).perm hhead
    · have hforeign : ¬ other.knows (slot.name, laid) = true := fun hknows =>
        hapart _ List.mem_cons_self _
          (List.mem_flatMap.mpr ⟨other, hother, List.contains_iff_mem.mp hknows⟩) rfl
      have htail := same other (List.mem_cons_of_mem _ hother)
      rwa [List.filter_cons_of_neg hforeign] at htail
  | @leftOut slot slots value members kept default rest ih =>
    rw [List.flatMap_cons, List.nodup_append] at distinct
    obtain ⟨-, hrest, hapart⟩ := distinct
    refine .cons ?_ (ih hrest fun other hother => same other (List.mem_cons_of_mem _ hother))
    have hhead := same slot List.mem_cons_self
    rw [rest.filter_knows_eq_nil hapart] at hhead
    exact (Slot.Holds.leftOut default).perm hhead

/-- However the object for a record is laid out, each slot finds its own value in it. -/
theorem record.exists_holds {slots : List Slot} {members : List (String × Json)} {later : Json}
    (h : record slots (object members) later) (distinct : (slots.flatMap Slot.names).Nodup) :
    ∃ found, later = object found ∧
      List.Forall₂ (fun slot member => Slot.Holds slot member.2 (found.filter slot.knows))
        slots members := by
  cases h with
  | @intro _ kept others found keeps unknown order =>
    refine ⟨found, rfl, keeps.holds distinct fun slot hslot => ?_⟩
    have hothers : others.filter slot.knows = [] :=
      filter_knows_eq_nil fun member hmember hname =>
        unknown member hmember (List.mem_flatMap.mpr ⟨slot, hslot, hname⟩)
    have horder := order.filter slot.knows
    rwa [List.filter_append, hothers, List.append_nil] at horder

/-- An object in which every slot has its value stands for itself. -/
theorem record.refl {slots : List Slot} {members : List (String × Json)}
    (h : List.Forall₂ (fun slot member => slot.name = member.1 ∧ slot.layout member.2 member.2)
      slots members) : record slots (object members) (object members) := by
  have hkeeps : Keeps slots members members := by
    induction h with
    | nil => exact .nil
    | @cons slot member slots members hhead _ ih =>
      obtain ⟨key, value⟩ := member
      obtain ⟨rfl, hvalue⟩ := hhead
      exact .kept hvalue ih
  exact @record.intro slots members members [] members hkeeps (by simp) (by simp)

end Layout

/-! ### Faithful ways of writing -/

/-- Whatever stands for a written value is read as that value; and what is written
stands for itself. -/
structure Faithful (layout : Layout) (write : α → Json) (read : Json → Option α) : Prop where
  refl : ∀ a, layout (write a) (write a)
  read_eq : ∀ a later, layout (write a) later → read later = some a

namespace Faithful

variable {layout : Layout} {write : α → Json} {read : Json → Option α}

theorem read_write (h : Faithful layout write read) (a : α) : read (write a) = some a :=
  h.read_eq a (write a) (h.refl a)

theorem injective (h : Faithful layout write read) {a b : α} (hwrite : write a = write b) :
    a = b :=
  Option.some.inj ((h.read_write a).symm.trans (hwrite ▸ h.read_write b))

theorem fixed (h : ∀ a, read (write a) = some a) : Faithful .fixed write read where
  refl _ := rfl
  read_eq a _ hlater := hlater ▸ h a

theorem text : Faithful .fixed Json.string text? :=
  fixed fun _ => rfl

theorem items (h : Faithful layout write read) :
    Faithful (.items layout) (ofList write) (items? read) where
  refl values := .intro (List.forall₂_same.mpr fun value hvalue => by
    obtain ⟨a, -, rfl⟩ := List.mem_map.mp hvalue
    exact h.refl a)
  read_eq values later hlater := by
    cases hlater with
    | @intro _ later each =>
      rw [List.forall₂_map_left_iff] at each
      change later.mapM read = some values
      induction each with
      | nil => rfl
      | cons hhead _ ih => simp [List.mapM_cons, h.read_eq _ _ hhead, ih]

theorem ne_null (h : Faithful layout write read) (hnull : read null = none) {a : α}
    {later : Json} (hlater : layout (write a) later) : later ≠ null := by
  rintro rfl
  have hread := h.read_eq a null hlater
  rw [hnull] at hread
  cases hread

/-- A value that may be absent, where null is read as no value that is present. -/
theorem nullable (h : Faithful layout write read) (hnull : read null = none) :
    Faithful (.nullable layout) (ofOption write) (nullable? read) where
  refl
    | none => .absent
    | some a => .present (h.ne_null hnull (h.refl a)) (h.refl a)
  read_eq
    | none, later, hlater => by
      change Layout.nullable layout null later at hlater
      cases hlater with
      | absent => rfl
      | present known _ => exact absurd rfl known
    | some a, later, hlater => by
      change Layout.nullable layout (write a) later at hlater
      generalize hwrite : write a = value at hlater
      cases hlater with
      | absent => exact absurd hwrite (h.ne_null hnull (h.refl a))
      | present _ value_later =>
        subst hwrite
        have hread := h.read_eq a later value_later
        cases later with
        | null => exact absurd rfl (h.ne_null hnull value_later)
        | _ => simp [nullable?, hread]

end Faithful

/-! ### Reading the fields of a record -/

namespace Slot.Holds

variable {slot : Slot} {members : List (String × Json)} {value : Json}

theorem find? (h : slot.Holds value (members.filter slot.knows)) (index : Nat) :
    (∃ later, slot.layout value later ∧
      (Record.named members).find? index slot.names = some (some later)) ∨
    slot.default? = some value ∧ (Record.named members).find? index slot.names = some none := by
  change slot.Holds value (members.filter fun member => slot.names.contains member.1) at h
  unfold Record.find?
  dsimp only
  generalize members.filter (fun member => slot.names.contains member.1) = found at h ⊢
  cases h with
  | kept value_later => exact .inl ⟨_, value_later, rfl⟩
  | leftOut default => exact .inr ⟨default, rfl⟩

/-- A field that must be there is read as the value that was written. -/
theorem required? {write : α → Json} {read : Json → Option α} {a : α}
    (h : slot.Holds (write a) (members.filter slot.knows))
    (faithful : Faithful slot.layout write read) (hdefault : slot.default? = none) (index : Nat) :
    (Record.named members).required? index slot.names read = some a := by
  unfold Record.required?
  rcases h.find? index with ⟨later, hlater, hfind⟩ | ⟨hwritten, -⟩
  · rw [hfind]
    exact faithful.read_eq a later hlater
  · rw [hdefault] at hwritten
    cases hwritten

/-- What is read for a field with a default, if the forms that stand for the value
that was written are read so, and so is the default where it was written. -/
theorem exists_defaulted? {read : Json → Option α} {default : α} {P : α → Prop}
    (h : slot.Holds value (members.filter slot.knows))
    (hread : ∀ later, slot.layout value later → ∃ a, read later = some a ∧ P a)
    (hdefault : slot.default? = some value → P default) (index : Nat) :
    ∃ a, (Record.named members).defaulted? index slot.names read default = some a ∧ P a := by
  unfold Record.defaulted?
  rcases h.find? index with ⟨later, hlater, hfind⟩ | ⟨hwritten, hfind⟩
  · rw [hfind]
    exact hread later hlater
  · rw [hfind]
    exact ⟨default, rfl, hdefault hwritten⟩

/-- A field with a default is read as the value that was written. -/
theorem defaulted? {write : α → Json} {read : Json → Option α} {a : α}
    (h : slot.Holds (write a) (members.filter slot.knows))
    (faithful : Faithful slot.layout write read) (default : α)
    (hdefault : slot.default? = some (write default)) (index : Nat) :
    (Record.named members).defaulted? index slot.names read default = some a := by
  obtain ⟨b, hread, rfl⟩ := h.exists_defaulted? (P := (· = a))
    (fun later hlater => ⟨a, faithful.read_eq a later hlater, rfl⟩)
    (fun hwritten => faithful.injective (Option.some.inj (hdefault.symm.trans hwritten))) index
  exact hread

end Slot.Holds

end Json
end QueryFilter
