import CrateSafety.Snapshot.Decode
import CrateSafety.Snapshot.Encode

/-!
# Snapshots written and read back

A snapshot that was read from some value, written with all its fields and read again, is the snapshot itself.
Reading accepts more than writing gives: shorthands, defaults, spelled numbers and truth values. The one thing
that is not free in what is read is that a marker that names an ancestor has a path to name, so this is what
reading ensures, record by record, and what reading back needs.
-/

namespace CrateSafety

namespace Checked

variable {α β : Type}

@[simp] theorem map_valid (f : α → β) (a : α) : f <$> (valid a : Checked α) = valid (f a) := rfl

@[simp] theorem seq_valid (f : α → β) (a : α) : (valid f : Checked (α → β)) <*> valid a = valid (f a) := rfl

@[simp] theorem beneath_valid (place : Place) (a : α) : (valid a).beneath place = valid a := rfl

/-- Whatever is read has a property. -/
def Ensures (x : Checked α) (p : α → Prop) : Prop := ∀ a, x = valid a → p a

namespace Ensures

variable {p : α → Prop} {q : β → Prop}

theorem of_forall {x : Checked α} (h : ∀ a, p a) : x.Ensures p := fun a _ => h a

theorem fault (cause : Cause) : (Checked.fault cause : Checked α).Ensures p := nofun

theorem valid {a : α} (h : p a) : (Checked.valid a).Ensures p := by
  rintro _ ⟨⟩
  exact h

theorem map {x : Checked α} {f : α → β} (h : x.Ensures fun a => q (f a)) : (f <$> x).Ensures q := by
  cases x with
  | valid a => exact valid (h a rfl)
  | invalid found => exact nofun

/-- Two checks side by side ensure what the function makes of the value. -/
theorem seq {f : Checked (α → β)} {x : Checked α} (hf : f.Ensures fun g => ∀ a, p a → q (g a))
    (hx : x.Ensures p) : (f <*> x).Ensures q := by
  cases f with
  | valid g =>
    cases x with
    | valid a => exact valid (hf g rfl a (hx a rfl))
    | invalid found => exact nofun
  | invalid found =>
    cases x with
    | valid a => exact nofun
    | invalid more => exact nofun

/-- A field that does not matter. -/
theorem skip {f : Checked (α → β)} {x : Checked α} (hf : f.Ensures fun g => ∀ a, q (g a)) :
    (f <*> x).Ensures q :=
  seq (fun g hg a _ => hf g hg a) (of_forall fun _ => trivial)

theorem beneath {x : Checked α} (h : x.Ensures p) (place : Place) : (x.beneath place).Ensures p := by
  cases x with
  | valid a => exact h
  | invalid found => exact nofun

theorem ensure (x : Checked α) (rule : α → Bool) (cause : Cause) :
    (x.ensure rule cause).Ensures fun a => rule a = true := by
  cases x with
  | invalid found => exact nofun
  | valid a =>
    unfold Checked.ensure
    dsimp only
    split
    case isTrue h => exact valid h
    case isFalse => exact fault cause

end Ensures

end Checked

namespace Read

variable {α : Type} {read : Json → Checked α} {write : α → Json}

section Back

@[simp] theorem text_string (s : String) : text (.string s) = .valid s := rfl

@[simp] theorem flag_bool (b : Bool) : flag (.bool b) = .valid b := rfl

@[simp] theorem nullable_text (s : Option String) : nullable text (.nullableText s) = .valid s := by
  cases s <;> rfl

@[simp] theorem nullable_integer (n : Option Int) : nullable integer (.nullableInteger n) = .valid n := by
  cases n <;> rfl

theorem items_map {l : List α} (h : ∀ a ∈ l, read (write a) = .valid a) (position : Nat) :
    items read position (l.map write) = .valid l := by
  induction l generalizing position with
  | nil => rfl
  | cons a l ih =>
    obtain ⟨ha, hl⟩ := List.forall_mem_cons.mp h
    rw [List.map_cons, items, ha, ih hl]
    rfl

/-- A list whose items are read back is read back. -/
theorem list_map {l : List α} (h : ∀ a ∈ l, read (write a) = .valid a) :
    list read (.array (l.map write)) = .valid l :=
  items_map h 0

@[simp] theorem list_texts (l : List String) : list text (.texts l) = .valid l :=
  list_map fun _ _ => rfl

theorem mapping_texts (l : List (String × String)) :
    mapping text (.object (l.map fun (name, s) => (name, .string s))) = .valid l := by
  change entries text _ = _
  induction l with
  | nil => rfl
  | cons entry l ih =>
    rw [List.map_cons, entries, ih]
    rfl

end Back

section Ensured

variable {p : α → Prop}

theorem ensures_items (hread : ∀ value, (read value).Ensures p) (position : Nat) (values : List Json) :
    (items read position values).Ensures fun l => ∀ a ∈ l, p a := by
  induction values generalizing position with
  | nil => exact .valid (by simp)
  | cons value values ih =>
    refine .seq (.map fun a ha l hl => ?_) (ih (position + 1))
    exact List.forall_mem_cons.mpr ⟨(hread value).beneath _ a ha, hl⟩

/-- What reading ensures of an item, it ensures of the items of a list. -/
theorem ensures_list (hread : ∀ value, (read value).Ensures p) (value : Json) :
    (list read value).Ensures fun l => ∀ a ∈ l, p a := by
  cases value with
  | array values => exact ensures_items hread 0 values
  | _ => exact .fault _

/-- What reading ensures of a value, it ensures of a field with a default that has it. -/
theorem ensures_optional (hread : ∀ value, (read value).Ensures p) {default : α} (hdefault : p default)
    (fields : List (String × Json)) (name : String) : (optional fields name default read).Ensures p := by
  unfold optional
  split
  case h_1 value _ => exact (hread value).beneath _
  case h_2 => exact .valid hdefault

theorem ensures_optional_list (hread : ∀ value, (read value).Ensures p) (fields : List (String × Json))
    (name : String) : (optional fields name [] (list read)).Ensures fun l => ∀ a ∈ l, p a :=
  ensures_optional (ensures_list hread) (fun _ ha => absurd ha List.not_mem_nil) fields name

theorem ensures_record {type : String} {readFields : List (String × Json) → Checked α}
    (h : ∀ fields, (readFields fields).Ensures p) (value : Json) : (record type readFields value).Ensures p := by
  cases value with
  | object fields => exact h fields
  | _ => exact .fault _

theorem ensures_closed {fields : List (String × Json)} {known : List String} {x : Checked α}
    (h : x.Ensures p) : (closed fields known x).Ensures p :=
  .skip (.map fun a ha _ => h a ha)

end Ensured

end Read

open Read

namespace Visibility

theorem member_word (reach : Reach) (cause : Cause) : member words cause (.string reach.word) = .valid reach := by
  cases reach <;> rfl

/-- A marker is read back if it has a path wherever it needs one. -/
theorem ofJson_toJson {v : Visibility} (h : v.hasTarget = true) : ofJson v.toJson = .valid v := by
  simp [ofJson, toJson, record, ofFields, Read.optional, Json.field?, member_word, Checked.ensure, h]

theorem ensures_ofFields (fields : List (String × Json)) :
    (ofFields fields).Ensures fun v => v.hasTarget = true :=
  .ensure _ _ _

/-- A marker that is read has a path wherever it needs one. -/
theorem ensures_ofJson (value : Json) : (ofJson value).Ensures fun v => v.hasTarget = true := by
  cases value with
  | string word => exact ensures_ofFields _
  | object fields => exact ensures_ofFields fields
  | _ => exact .fault _

theorem ensures_ofField (fields : List (String × Json)) :
    (ofField fields).Ensures fun v => v.hasTarget = true :=
  ensures_optional ensures_ofJson rfl fields "visibility"

end Visibility

section Records

theorem Module.ofJson_toJson {m : Module} (h : m.visibility.hasTarget = true) :
    ofJson m.toJson = .valid m := by
  simp [ofJson, toJson, record, closed, known, required, Read.optional, Visibility.ofField, Json.field?,
    Visibility.ofJson_toJson h]

theorem Field.ofJson_toJson {f : Field} (h : f.visibility.hasTarget = true) :
    ofJson f.toJson = .valid f := by
  simp [ofJson, toJson, record, closed, known, required, Read.optional, Visibility.ofField, Json.field?,
    Visibility.ofJson_toJson h]

theorem Operation.ofJson_toJson (o : Operation) : ofJson o.toJson = .valid o := by
  have hkind : kindOfJson (.string o.kind.word) = .valid o.kind := by cases o.kind <;> rfl
  have haccess : accessOfJson (.string o.access.word) = .valid o.access := by cases o.access <;> rfl
  simp [ofJson, toJson, record, closed, known, required, Read.optional, Json.field?, hkind, haccess,
    mapping_texts]

theorem FunctionDeclaration.ofJson_toJson {d : FunctionDeclaration} (h : d.visibility.hasTarget = true) :
    ofJson d.toJson = .valid d := by
  have hkind : kindOfJson (.string d.kind.word) = .valid d.kind := by cases d.kind <;> rfl
  have hbody : list Operation.ofJson (.array (d.body.map (·.toJson))) = .valid d.body :=
    list_map fun o _ => o.ofJson_toJson
  simp [ofJson, toJson, record, closed, known, required, Read.optional, Visibility.ofField, Json.field?,
    Visibility.ofJson_toJson h, hkind, hbody]

theorem TraitMethodDeclaration.ofJson_toJson (d : TraitMethodDeclaration) : ofJson d.toJson = .valid d := by
  have hbody : list Operation.ofJson (.array (d.body.map (·.toJson))) = .valid d.body :=
    list_map fun o _ => o.ofJson_toJson
  simp [ofJson, toJson, record, closed, known, required, Read.optional, Json.field?, hbody]

theorem TraitDeclaration.ofJson_toJson {d : TraitDeclaration} (h : d.visibility.hasTarget = true) :
    ofJson d.toJson = .valid d := by
  have hmethods : list TraitMethodDeclaration.ofJson (.array (d.methods.map (·.toJson))) = .valid d.methods :=
    list_map fun m _ => m.ofJson_toJson
  simp [ofJson, toJson, record, closed, known, required, Read.optional, Visibility.ofField, Json.field?,
    Visibility.ofJson_toJson h, hmethods]

theorem StructDeclaration.ofJson_toJson {d : StructDeclaration} (h : d.visibility.hasTarget = true)
    (hf : ∀ f ∈ d.fields, f.visibility.hasTarget = true) : ofJson d.toJson = .valid d := by
  have hfields : list Field.ofJson (.array (d.fields.map (·.toJson))) = .valid d.fields :=
    list_map fun f hmem => Field.ofJson_toJson (hf f hmem)
  simp [ofJson, toJson, record, closed, known, required, Read.optional, Visibility.ofField, Json.field?,
    Visibility.ofJson_toJson h, hfields]

theorem EnumDeclaration.ofJson_toJson {d : EnumDeclaration} (h : d.visibility.hasTarget = true) :
    ofJson d.toJson = .valid d := by
  simp [ofJson, toJson, record, closed, known, required, Read.optional, Visibility.ofField, Json.field?,
    Visibility.ofJson_toJson h]

theorem ImplDeclaration.ofJson_toJson (d : ImplDeclaration) : ofJson d.toJson = .valid d := by
  simp [ofJson, toJson, record, closed, known, required, Read.optional, Json.field?]

end Records

section Markers

theorem Module.ensures_ofJson (value : Json) :
    (ofJson value).Ensures fun m => m.visibility.hasTarget = true := by
  refine ensures_record (fun fields => ensures_closed ?_) value
  exact .seq (.map (.of_forall fun _ _ hv => hv)) (Visibility.ensures_ofField fields)

theorem Field.ensures_ofJson (value : Json) :
    (ofJson value).Ensures fun f => f.visibility.hasTarget = true := by
  refine ensures_record (fun fields => ensures_closed ?_) value
  exact .seq (.map (.of_forall fun _ _ hv => hv)) (Visibility.ensures_ofField fields)

theorem FunctionDeclaration.ensures_ofJson (value : Json) :
    (ofJson value).Ensures fun d => d.visibility.hasTarget = true := by
  refine ensures_record (fun fields => ensures_closed ?_) value
  refine .skip (.skip (.skip (.skip (.skip (.skip (.skip (.skip ?_)))))))
  refine .seq (.skip (.skip (.map (.of_forall ?_)))) (Visibility.ensures_ofField fields)
  intros
  assumption

theorem TraitDeclaration.ensures_ofJson (value : Json) :
    (ofJson value).Ensures fun d => d.visibility.hasTarget = true := by
  refine ensures_record (fun fields => ensures_closed ?_) value
  refine .skip (.skip (.skip (.skip ?_)))
  refine .seq (.skip (.map (.of_forall ?_))) (Visibility.ensures_ofField fields)
  intros
  assumption

theorem StructDeclaration.ensures_ofJson (value : Json) :
    (ofJson value).Ensures fun d =>
      d.visibility.hasTarget = true ∧ ∀ f ∈ d.fields, f.visibility.hasTarget = true := by
  refine ensures_record (fun fields => ensures_closed ?_) value
  have hfields := ensures_optional_list Field.ensures_ofJson fields "fields"
  refine .skip (.skip (.seq (.seq (.skip (.map (.of_forall ?_))) (Visibility.ensures_ofField fields)) hfields))
  intro _ _ _ hmarker _ hfields _ _
  exact ⟨hmarker, hfields⟩

theorem EnumDeclaration.ensures_ofJson (value : Json) :
    (ofJson value).Ensures fun d => d.visibility.hasTarget = true := by
  refine ensures_record (fun fields => ensures_closed ?_) value
  refine .skip (.skip ?_)
  refine .seq (.skip (.map (.of_forall ?_))) (Visibility.ensures_ofField fields)
  intros
  assumption

end Markers

namespace Declaration

/-- Every marker of a declaration has a path wherever it needs one. -/
def Marked : Declaration → Prop
  | function d => d.visibility.hasTarget = true
  | trait d => d.visibility.hasTarget = true
  | struct d => d.visibility.hasTarget = true ∧ ∀ f ∈ d.fields, f.visibility.hasTarget = true
  | enum d => d.visibility.hasTarget = true
  | impl _ => True

/-- An item is read by the reader for its kind. -/
theorem ofJson_of_kind {value : Json} {word name : String} {read : Json → Checked Declaration}
    (hkind : kindOf value = .string word)
    (hreader : readers.find? (fun entry => entry.1 == recordKind word) = some (name, read)) :
    ofJson value = (read value).beneath (.name name) := by
  unfold ofJson
  rw [hkind]
  simp only [Json.plainText, hreader]

/-- An item is read back if its markers have their paths. -/
theorem ofJson_toJson {d : Declaration} (h : d.Marked) : ofJson d.toJson = .valid d := by
  cases d with
  | function d =>
    have hkind : kindOf d.toJson = .string d.kind.word := rfl
    have hreader : readers.find? (fun entry => entry.1 == recordKind d.kind.word) =
        some ("function", fun v => Declaration.function <$> FunctionDeclaration.ofJson v) := by
      cases d.kind <;> rfl
    rw [toJson, ofJson_of_kind hkind hreader, FunctionDeclaration.ofJson_toJson h]
    rfl
  | trait d =>
    have hkind : kindOf d.toJson = .string "trait" := rfl
    rw [toJson, ofJson_of_kind hkind rfl, TraitDeclaration.ofJson_toJson h]
    rfl
  | struct d =>
    have hkind : kindOf d.toJson = .string "struct" := rfl
    rw [toJson, ofJson_of_kind hkind rfl, StructDeclaration.ofJson_toJson h.1 h.2]
    rfl
  | enum d =>
    have hkind : kindOf d.toJson = .string "enum" := rfl
    rw [toJson, ofJson_of_kind hkind rfl, EnumDeclaration.ofJson_toJson h]
    rfl
  | impl d =>
    have hkind : kindOf d.toJson = .string "trait_impl" := rfl
    rw [toJson, ofJson_of_kind hkind rfl, ImplDeclaration.ofJson_toJson d]
    rfl

theorem ensures_readers {name : String} {read : Json → Checked Declaration} (h : (name, read) ∈ readers)
    (value : Json) : (read value).Ensures Marked := by
  simp only [readers, List.mem_cons, Prod.mk.injEq, List.not_mem_nil, or_false] at h
  rcases h with ⟨-, rfl⟩ | ⟨-, rfl⟩ | ⟨-, rfl⟩ | ⟨-, rfl⟩ | ⟨-, rfl⟩
  · exact .map (FunctionDeclaration.ensures_ofJson value)
  · exact .map (TraitDeclaration.ensures_ofJson value)
  · exact .map (StructDeclaration.ensures_ofJson value)
  · exact .map (EnumDeclaration.ensures_ofJson value)
  · exact .map (.of_forall fun _ => trivial)

/-- The markers of an item that is read have their paths. -/
theorem ensures_ofJson (value : Json) : (ofJson value).Ensures Marked := by
  unfold ofJson
  split
  case h_1 => exact .fault _
  case h_2 =>
    dsimp only
    split
    case h_1 name read hfind => exact (ensures_readers (List.mem_of_find?_eq_some hfind) value).beneath _
    case h_2 => exact .fault _

end Declaration

namespace Snapshot

/-- Every marker of a snapshot has a path wherever it needs one. -/
structure Marked (s : Snapshot) : Prop where
  /-- The markers of modules do. -/
  modules : ∀ m ∈ s.modules, m.visibility.hasTarget = true
  /-- The markers of items do. -/
  items : ∀ d ∈ s.items, d.Marked

/-- A snapshot is read back if its markers have their paths. -/
theorem ofJson_toJson {s : Snapshot} (h : s.Marked) : ofJson s.toJson = .valid s := by
  have hmodules : list Module.ofJson (.array (s.modules.map (·.toJson))) = .valid s.modules :=
    list_map fun m hm => Module.ofJson_toJson (h.modules m hm)
  have hitems : list Declaration.ofJson (.array (s.items.map (·.toJson))) = .valid s.items :=
    list_map fun d hd => Declaration.ofJson_toJson (h.items d hd)
  simp [ofJson, toJson, record, Read.optional, Json.field?, hmodules, hitems]

/-- The markers of a snapshot that is read have their paths. -/
theorem ensures_ofJson (value : Json) : (ofJson value).Ensures Marked := by
  refine ensures_record (fun fields => ?_) value
  have hmodules := ensures_optional_list Module.ensures_ofJson fields "modules"
  have hitems := ensures_optional_list Declaration.ensures_ofJson fields "items"
  refine .seq (.seq (.map (.of_forall ?_)) hmodules) hitems
  intro _ _ hmodules _ hitems
  exact ⟨hmodules, hitems⟩

end Snapshot

/-- A snapshot that was read from some value, written out with every field and read again is the same. -/
theorem validated_reads_back {value : Json} {s : Snapshot} (h : Snapshot.ofJson value = .valid s) :
    Snapshot.ofJson s.toJson = .valid s :=
  Snapshot.ofJson_toJson (Snapshot.ensures_ofJson value s h)

/-- A crate with every kind of item, given by shorthands, defaults and numbers for truth values. -/
def tersePool : Json :=
  .object [
    ("modules", .array [.object [("path", .string "crate::mem"), ("visibility", .string "pub_crate")]]),
    ("items", .array [
      .object [("kind", .string "struct"), ("path", .string "crate::mem::Pool"), ("module", .string "crate::mem"),
        ("fields", .array [.object [("name", .string "base"),
          ("visibility", .object [("path", .string "crate"), ("kind", .string "pub_in_path")])]]),
        ("line", .integer 12)],
      .object [("path", .string "crate::mem::Pool::get"), ("kind", .string "method"), ("unsafe", .integer 1),
        ("owner", .string "crate::mem::Pool"), ("visibility", .object []),
        ("body", .array [.object [("op", .string "raw_deref"), ("target", .string "self.base"),
          ("fields", .object [("tag", .string "0")]), ("line", .decimal (.finite 14))]])],
      .object [("kind", .string "trait"), ("path", .string "crate::Drain"),
        ("methods", .array [.object [("name", .string "drain"), ("receiver", .decimal (.finite 0))]])],
      .object [("kind", .string "enum"), ("path", .string "crate::Slot"), ("line", .bool true),
        ("variants", .array [.string "Free", .string "Taken"])],
      .object [("kind", .string "trait_impl"), ("path", .string "impl Send for Pool"), ("trait", .string "Send"),
        ("target", .string "crate::mem::Pool"), ("unsafe", .bool true)],
      .object [("path", .string "crate::reset")]]),
    ("notes", .null)]

/-- The snapshot of the terse crate. -/
def plainPool : Snapshot :=
  { modules := [⟨"crate::mem", { reach := .wholeCrate }⟩]
    items := [
      .struct
        { path := "crate::mem::Pool", module := "crate::mem",
          fields := [⟨"base", { reach := .ancestor, path := some "crate" }⟩], line := some 12 },
      .function
        { kind := .method, path := "crate::mem::Pool::get", owner := some "crate::mem::Pool",
          declaredUnsafe := true,
          body := [{ kind := .rawDeref, target := "self.base", fields := [("tag", "0")], line := some 14 }] },
      .trait { path := "crate::Drain", methods := [{ name := "drain", receiver := false }] },
      .enum { path := "crate::Slot", variants := ["Free", "Taken"], line := some 1 },
      .impl { path := "impl Send for Pool", trait := "Send", target := "crate::mem::Pool", declaredUnsafe := true },
      .function { path := "crate::reset" }] }

/-- The terse crate is read, and what was read is read back from its full form. -/
theorem plainPool_reads_back :
    Snapshot.ofJson tersePool = .valid plainPool ∧ Snapshot.ofJson plainPool.toJson = .valid plainPool := by
  have hread : Snapshot.ofJson tersePool = .valid plainPool := by rfl
  exact ⟨hread, validated_reads_back hread⟩

end CrateSafety
