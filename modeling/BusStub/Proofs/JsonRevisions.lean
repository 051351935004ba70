import BusStub.Model.Json
import Mathlib.Logic.Function.Basic

/-! Objects that are written as JSON and read again, by a reader that may have been given a revised value: with fields
that it does not know, and without fields that hold their default. What it reads is the same object, and it reads
nothing once a field is missing that has no default. -/

namespace BusStub
namespace Json

inductive Record where
  | node | interface | method | signal | property | arg

/-- What a value is read as. -/
inductive Form where
  | plain
  | record (record : Record)
  | list (record : Record)

namespace Record

def fieldNames : Record → List String
  | node => ObjectNode.fieldNames
  | interface => Interface.fieldNames
  | method => Method.fieldNames
  | signal => Signal.fieldNames
  | property => Property.fieldNames
  | arg => Arg.fieldNames

def form : Record → String → Form
  | node, "interface" => .record interface
  | interface, "methods" => .list method
  | interface, "signals" => .list signal
  | interface, "properties" => .list property
  | interface, "parents" => .list interface
  | method, "args" => .list arg
  | signal, "args" => .list arg
  | _, _ => .plain

/-- What a field stands for when it is missing; without a default it is required. -/
def default? : Record → String → Option Json
  | interface, "methods" | interface, "signals" | interface, "properties" | interface, "parents" => some (.array [])
  | interface, "secure" => some (.bool false)
  | method, "args" | signal, "args" => some (.array [])
  | method, "no-reply" | method, "secure" | signal, "secure" => some (.bool false)
  | arg, "direction" => some (.string "in")
  | arg, "variant-hint" => some .null
  | _, _ => none

end Record

section
variable (revises : Bool → Form → Json → Json → Prop)

/-- Fields are revised as their values are; others are added that the record does not know, and some are left out. -/
inductive FieldsRevised : Bool → Record → List (String × Json) → List (String × Json) → Prop where
  | nil {record : Record} : FieldsRevised false record [] []
  | keep {lost later : Bool} {record : Record} {name : String} {value other : Json}
      {fields revised : List (String × Json)} :
      revises lost (record.form name) value other → FieldsRevised later record fields revised →
      FieldsRevised (lost || later) record ((name, value) :: fields) ((name, other) :: revised)
  | drop {lost : Bool} {record : Record} {name : String} {value : Json} {fields revised : List (String × Json)} :
      record.default? name = some value → FieldsRevised lost record fields revised →
      FieldsRevised lost record ((name, value) :: fields) revised
  | lose {lost : Bool} {record : Record} {name : String} {value : Json} {fields revised : List (String × Json)} :
      record.default? name = none → FieldsRevised lost record fields revised →
      FieldsRevised true record ((name, value) :: fields) revised
  | add {lost : Bool} {record : Record} {name : String} {value : Json} {fields revised : List (String × Json)} :
      name ∉ record.fieldNames → FieldsRevised lost record fields revised →
      FieldsRevised lost record fields ((name, value) :: revised)

inductive ItemsRevised : Bool → Record → List Json → List Json → Prop where
  | nil {record : Record} : ItemsRevised false record [] []
  | cons {lost later : Bool} {record : Record} {item other : Json} {items revised : List Json} :
      revises lost (.record record) item other → ItemsRevised later record items revised →
      ItemsRevised (lost || later) record (item :: items) (other :: revised)

end

/-- The second value is the first one revised, at any depth. The flag says whether a required field has been left
out. -/
inductive Revised : Bool → Form → Json → Json → Prop where
  | plain {value : Json} : Revised false .plain value value
  | record {lost : Bool} {record : Record} {fields revised : List (String × Json)} :
      FieldsRevised Revised lost record fields revised →
      Revised lost (.record record) (.object fields) (.object revised)
  | list {lost : Bool} {record : Record} {items revised : List Json} :
      ItemsRevised Revised lost record items revised → Revised lost (.list record) (.array items) (.array revised)

/-- What has become of a field. -/
inductive Kept (record : Record) (name : String) : Bool → Option Json → Option Json → Prop where
  | absent : Kept record name false none none
  | kept {lost : Bool} {value other : Json} :
      Revised lost (record.form name) value other → Kept record name lost (some value) (some other)
  | dropped {value : Json} : record.default? name = some value → Kept record name false (some value) none
  | lost {value : Json} : record.default? name = none → Kept record name true (some value) none

theorem Kept.of_absent {record : Record} {name : String} {lost : Bool} {revised : Option Json}
    (kept : Kept record name lost none revised) : lost = false ∧ revised = none := by
  cases kept
  exact ⟨rfl, rfl⟩

theorem lookup_eq_none {fields : List (String × Json)} {name : String} (missing : name ∉ fields.map Prod.fst) :
    fields.lookup name = none := by
  rw [List.lookup_eq_none_iff]
  rintro ⟨other, value⟩ inside
  rw [bne_iff_ne]
  rintro rfl
  exact missing (List.mem_map.mpr ⟨_, inside, rfl⟩)

/-- The fields of a record can be followed on their own. -/
def Follows (record : Record) (lost : Bool) (fields revised : List (String × Json)) : Prop :=
  ∃ gone : String → Bool, lost = record.fieldNames.any gone ∧
    ∀ name ∈ record.fieldNames, Kept record name (gone name) (fields.lookup name) (revised.lookup name)

namespace Follows

variable {record : Record} {lost here : Bool} {fields revised after : List (String × Json)} {name : String}
  {value : Json}

theorem absent (follows : Follows record lost fields revised) (known : name ∈ record.fieldNames)
    (fresh : name ∉ fields.map Prod.fst) : revised.lookup name = none := by
  obtain ⟨gone, -, kept⟩ := follows
  have own := kept name known
  rw [lookup_eq_none fresh] at own
  exact own.of_absent.2

/-- One more field, in front of those that have been followed. -/
theorem cons (follows : Follows record lost fields revised) (known : name ∈ record.fieldNames)
    (fresh : name ∉ fields.map Prod.fst) (first : Kept record name here (some value) (after.lookup name))
    (others : ∀ other ≠ name, after.lookup other = revised.lookup other) :
    Follows record (here || lost) ((name, value) :: fields) after := by
  obtain ⟨gone, rfl, kept⟩ := follows
  have before : gone name = false := by
    have own := kept name known
    rw [lookup_eq_none fresh] at own
    exact own.of_absent.1
  refine ⟨Function.update gone name here, ?_, ?_⟩
  · rw [Bool.eq_iff_iff, Bool.or_eq_true, List.any_eq_true, List.any_eq_true]
    constructor
    · rintro (now | ⟨other, inside, earlier⟩)
      · exact ⟨name, known, by rw [Function.update_self, now]⟩
      · have different : other ≠ name := by
          rintro rfl
          simp [before] at earlier
        exact ⟨other, inside, by rw [Function.update_of_ne different, earlier]⟩
    · rintro ⟨other, inside, either⟩
      by_cases same : other = name
      · subst same
        exact .inl (by simpa using either)
      · rw [Function.update_of_ne same] at either
        exact .inr ⟨other, inside, either⟩
  · intro other inside
    by_cases same : other = name
    · subst same
      simpa using first
    · rw [Function.update_of_ne same, others other same, List.lookup_cons, beq_false_of_ne same]
      exact kept other inside

/-- One more field, which has been left out. -/
theorem cons_gone (follows : Follows record lost fields revised) (known : name ∈ record.fieldNames)
    (fresh : name ∉ fields.map Prod.fst) (gone : Kept record name here (some value) none) :
    Follows record (here || lost) ((name, value) :: fields) revised := by
  refine follows.cons known fresh ?_ fun _ _ => rfl
  rwa [follows.absent known fresh]

end Follows

theorem Record.fieldNames_nodup (record : Record) : record.fieldNames.Nodup := by
  cases record <;> decide

theorem FieldsRevised.follows {lost : Bool} {record : Record} {fields revised : List (String × Json)}
    (revision : FieldsRevised Revised lost record fields revised)
    (known : (fields.map Prod.fst).Sublist record.fieldNames) : Follows record lost fields revised := by
  induction revision with
  | nil => exact ⟨fun _ => false, by simp, fun _ _ => .absent⟩
  | @keep here later record name value other fields revised revises rest ih =>
    have fresh := (List.nodup_cons.mp (known.nodup (Record.fieldNames_nodup _))).1
    have follows := ih (List.sublist_of_cons_sublist known)
    apply follows.cons (known.subset List.mem_cons_self) fresh
    · rw [List.lookup_cons_self]
      exact .kept revises
    · intro other different
      rw [List.lookup_cons, beq_false_of_ne different]
  | drop default rest ih =>
    have fresh := (List.nodup_cons.mp (known.nodup (Record.fieldNames_nodup _))).1
    have follows := ih (List.sublist_of_cons_sublist known)
    exact follows.cons_gone (known.subset List.mem_cons_self) fresh (.dropped default)
  | lose needed rest ih =>
    have fresh := (List.nodup_cons.mp (known.nodup (Record.fieldNames_nodup _))).1
    have follows := ih (List.sublist_of_cons_sublist known)
    exact follows.cons_gone (known.subset List.mem_cons_self) fresh (.lost needed)
  | add unknown rest ih =>
    obtain ⟨gone, same, kept⟩ := ih known
    refine ⟨gone, same, ?_⟩
    intro name inside
    rw [List.lookup_cons, beq_false_of_ne (ne_of_mem_of_not_mem inside unknown)]
    exact kept name inside

/-- However the value has been revised, it is read as given, unless a required field has been lost. -/
def Reads {α : Type} (read : Json → Option α) (form : Form) (json : Json) (value : α) : Prop :=
  ∀ lost revised, Revised lost form json revised → read revised = if lost then none else some value

section
variable {α β : Type} {read : Json → Option α} {value : α} {json : Json}

theorem Reads.plain (found : read json = some value) : Reads read .plain json value := by
  rintro lost revised ⟨⟩
  exact found

theorem unless_bind {lost : Bool} {next : α → Option β} :
    (if lost then none else some value).bind next = if lost then none else next value := by
  cases lost <;> rfl

theorem unless_unless {lost later : Bool} {result : Option α} :
    (if lost then none else if later then none else result) = if lost || later then none else result := by
  cases lost <;> rfl

theorem ItemsRevised.reads {record : Record} {values : List α} {toJson : α → Json} {lost : Bool} {revised : List Json}
    (each : ∀ value ∈ values, Reads read (.record record) (toJson value) value)
    (revises : ItemsRevised Revised lost record (values.map toJson) revised) :
    revised.mapM read = if lost then none else some values := by
  induction values generalizing lost revised with
  | nil =>
    cases revises
    rfl
  | cons value rest ih =>
    rw [List.map_cons] at revises
    cases revises with
    | cons first others =>
      have later := ih (fun value inside => each value (List.mem_cons_of_mem _ inside)) others
      rw [List.mapM_cons, each value List.mem_cons_self _ _ first, later]
      simp only [Option.bind_eq_bind, Option.pure_def, unless_bind, unless_unless]

theorem Reads.list {record : Record} {values : List α} {toJson : α → Json}
    (each : ∀ value ∈ values, Reads read (.record record) (toJson value) value) :
    Reads (list? read) (.list record) (.array (values.map toJson)) values := by
  rintro lost revised (_ | _ | items)
  exact items.reads each

theorem Kept.required {record : Record} {name : String} {lost : Bool} {fields : List (String × Json)}
    (kept : Kept record name lost (some json) (fields.lookup name)) (needed : record.default? name = none)
    (reads : Reads read (record.form name) json value) :
    Json.required fields name read = if lost then none else some value := by
  unfold Json.required
  generalize fields.lookup name = found at kept
  cases kept with
  | kept revises => exact reads _ _ revises
  | dropped default =>
    rw [needed] at default
    cases default
  | lost _ => rfl

theorem Kept.optional {record : Record} {name : String} {lost : Bool} {standard : Json} {default : α}
    {fields : List (String × Json)} (kept : Kept record name lost (some json) (fields.lookup name))
    (known : record.default? name = some standard) (reads : Reads read (record.form name) json value)
    (same : json = standard → value = default) :
    Json.optional fields name read default = if lost then none else some value := by
  unfold Json.optional
  generalize fields.lookup name = found at kept
  cases kept with
  | kept revises => exact reads _ _ revises
  | dropped holds =>
    rw [known] at holds
    cases holds
    simp [same]
  | lost needed =>
    rw [known] at needed
    cases needed

theorem Kept.optional_absent {record : Record} {name : String} {lost : Bool} {fields : List (String × Json)}
    (kept : Kept record name lost none (fields.lookup name)) :
    Json.optional fields name read value = if lost then none else some value := by
  unfold Json.optional
  rw [kept.of_absent.1, kept.of_absent.2]
  rfl

end

end Json

open Json (Reads)

theorem Direction.reads (direction : Direction) : Reads ofJson? .plain direction.toJson direction :=
  .plain (by cases direction <;> rfl)

theorem Access.reads (access : Access) : Reads ofJson? .plain access.toJson access :=
  .plain (by cases access <;> rfl)

theorem Arg.reads (arg : Arg) : Reads ofJson? (.record .arg) arg.toJson arg := by
  obtain ⟨name, signature, direction, hint⟩ := arg
  rintro lost revised (_ | @⟨_, _, _, revised, revision⟩ | _)
  obtain ⟨gone, rfl, kept⟩ := revision.follows (by cases hint <;> simp [Json.Record.fieldNames, fieldNames])
  have readName : Json.required revised "name" Json.text? = if gone "name" then none else some name :=
    (kept "name" (by decide)).required rfl (.plain rfl)
  have readSignature : Json.required revised "signature" Json.text? =
      if gone "signature" then none else some signature :=
    (kept "signature" (by decide)).required rfl (.plain rfl)
  have readDirection : Json.optional revised "direction" Direction.ofJson? .input =
      if gone "direction" then none else some direction := by
    refine (kept "direction" (by decide)).optional rfl direction.reads ?_
    cases direction <;> simp [Direction.toJson, Direction.name]
  have readHint : Json.optional revised "variant-hint" Json.maybeText? none =
      if gone "variant-hint" then none else some hint := by
    cases hint with
    | none => exact (kept "variant-hint" (by decide)).optional_absent
    | some hint => exact (kept "variant-hint" (by decide)).optional rfl (.plain rfl) nofun
  simp only [ofJson?, Json.fields?, Option.bind_eq_bind, Option.bind_some, readName, readSignature, readDirection,
    readHint, Json.unless_bind, Json.unless_unless, Option.pure_def, Json.Record.fieldNames, fieldNames, List.any_cons,
    List.any_nil, Bool.or_false]

theorem Method.reads (method : Method) : Reads ofJson? (.record .method) method.toJson method := by
  obtain ⟨name, args, noReply, secure⟩ := method
  rintro lost revised (_ | @⟨_, _, _, revised, revision⟩ | _)
  obtain ⟨gone, rfl, kept⟩ := revision.follows (by simp [Json.Record.fieldNames, fieldNames])
  have readName : Json.required revised "name" Json.text? = if gone "name" then none else some name :=
    (kept "name" (by decide)).required rfl (.plain rfl)
  have readArgs : Json.optional revised "args" (Json.list? Arg.ofJson?) [] = if gone "args" then none else some args :=
    (kept "args" (by decide)).optional rfl (.list fun arg _ => arg.reads) (by simp)
  have readNoReply : Json.optional revised "no-reply" Json.flag? false =
      if gone "no-reply" then none else some noReply :=
    (kept "no-reply" (by decide)).optional rfl (.plain rfl) (by simp)
  have readSecure : Json.optional revised "secure" Json.flag? false = if gone "secure" then none else some secure :=
    (kept "secure" (by decide)).optional rfl (.plain rfl) (by simp)
  simp only [ofJson?, Json.fields?, Option.bind_eq_bind, Option.bind_some, readName, readArgs, readNoReply,
    readSecure, Json.unless_bind, Json.unless_unless, Option.pure_def, Json.Record.fieldNames, fieldNames,
    List.any_cons, List.any_nil, Bool.or_false]

theorem Signal.reads (signal : Signal) : Reads ofJson? (.record .signal) signal.toJson signal := by
  obtain ⟨name, args, secure⟩ := signal
  rintro lost revised (_ | @⟨_, _, _, revised, revision⟩ | _)
  obtain ⟨gone, rfl, kept⟩ := revision.follows (by simp [Json.Record.fieldNames, fieldNames])
  have readName : Json.required revised "name" Json.text? = if gone "name" then none else some name :=
    (kept "name" (by decide)).required rfl (.plain rfl)
  have readArgs : Json.optional revised "args" (Json.list? Arg.ofJson?) [] = if gone "args" then none else some args :=
    (kept "args" (by decide)).optional rfl (.list fun arg _ => arg.reads) (by simp)
  have readSecure : Json.optional revised "secure" Json.flag? false = if gone "secure" then none else some secure :=
    (kept "secure" (by decide)).optional rfl (.plain rfl) (by simp)
  simp only [ofJson?, Json.fields?, Option.bind_eq_bind, Option.bind_some, readName, readArgs, readSecure,
    Json.unless_bind, Json.unless_unless, Option.pure_def, Json.Record.fieldNames, fieldNames, List.any_cons,
    List.any_nil, Bool.or_false]

theorem Property.reads (property : Property) : Reads ofJson? (.record .property) property.toJson property := by
  obtain ⟨name, signature, access⟩ := property
  rintro lost revised (_ | @⟨_, _, _, revised, revision⟩ | _)
  obtain ⟨gone, rfl, kept⟩ := revision.follows (by simp [Json.Record.fieldNames, fieldNames])
  have readName : Json.required revised "name" Json.text? = if gone "name" then none else some name :=
    (kept "name" (by decide)).required rfl (.plain rfl)
  have readSignature : Json.required revised "signature" Json.text? =
      if gone "signature" then none else some signature :=
    (kept "signature" (by decide)).required rfl (.plain rfl)
  have readAccess : Json.required revised "access" Access.ofJson? = if gone "access" then none else some access :=
    (kept "access" (by decide)).required rfl access.reads
  simp only [ofJson?, Json.fields?, Option.bind_eq_bind, Option.bind_some, readName, readSignature, readAccess,
    Json.unless_bind, Json.unless_unless, Option.pure_def, Json.Record.fieldNames, fieldNames, List.any_cons,
    List.any_nil, Bool.or_false]

namespace Interface

theorem parents_induction {motive : Interface → Prop}
    (step : ∀ interface, (∀ parent ∈ interface.parents, motive parent) → motive interface) :
    (interface : Interface) → motive interface
  | ⟨name, methods, signals, properties, secure, parents⟩ => step _ fun parent _ => parents_induction step parent
termination_by interface => sizeOf interface
decreasing_by
  rename_i inside
  have smaller : sizeOf parent < sizeOf parents := List.sizeOf_lt_of_mem inside
  simp only [mk.sizeOf_spec]
  omega

theorem allToJson_eq (interfaces : List Interface) : allToJson interfaces = interfaces.map toJson := by
  induction interfaces with
  | nil => rfl
  | cons interface rest ih => rw [allToJson, ih, List.map_cons]

theorem listOfJson?_eq : listOfJson? = Json.list? ofJson? := by
  have items (values : List Json) : allOfJson? values = values.mapM ofJson? := by
    induction values with
    | nil => rfl
    | cons value rest ih =>
      rw [allOfJson?, ih, List.mapM_cons]
      cases ofJson? value <;> cases rest.mapM ofJson? <;> rfl
  funext json
  cases json <;> simp [listOfJson?, Json.list?, items]

theorem parentsNamed?_eq (fields : List (String × Json)) :
    parentsNamed? fields = Json.optional fields "parents" (Json.list? ofJson?) [] := by
  induction fields with
  | nil => rfl
  | cons field rest ih =>
    obtain ⟨name, value⟩ := field
    rw [parentsNamed?, ih, listOfJson?_eq]
    unfold Json.optional
    by_cases same : name = "parents"
    · subst same
      rfl
    · rw [if_neg same, List.lookup_cons, beq_false_of_ne (Ne.symm same)]

theorem reads_of_parents {interface : Interface}
    (above : ∀ parent ∈ interface.parents, Reads ofJson? (.record .interface) parent.toJson parent) :
    Reads ofJson? (.record .interface) interface.toJson interface := by
  obtain ⟨name, methods, signals, properties, secure, parents⟩ := interface
  rintro lost revised read
  rw [toJson, allToJson_eq] at read
  obtain _ | @⟨_, _, _, revised, revision⟩ | _ := read
  obtain ⟨gone, rfl, kept⟩ := revision.follows (by
    cases parents <;> simp [Json.Record.fieldNames, fieldNames, ownFields, parentFields])
  have readName : Json.required revised "name" Json.text? = if gone "name" then none else some name :=
    (kept "name" (by decide)).required rfl (.plain rfl)
  have readMethods : Json.optional revised "methods" (Json.list? Method.ofJson?) [] =
      if gone "methods" then none else some methods :=
    (kept "methods" (by decide)).optional rfl (.list fun method _ => method.reads) (by simp)
  have readSignals : Json.optional revised "signals" (Json.list? Signal.ofJson?) [] =
      if gone "signals" then none else some signals :=
    (kept "signals" (by decide)).optional rfl (.list fun signal _ => signal.reads) (by simp)
  have readProperties : Json.optional revised "properties" (Json.list? Property.ofJson?) [] =
      if gone "properties" then none else some properties :=
    (kept "properties" (by decide)).optional rfl (.list fun property _ => property.reads) (by simp)
  have readSecure : Json.optional revised "secure" Json.flag? false = if gone "secure" then none else some secure :=
    (kept "secure" (by decide)).optional rfl (.plain rfl) (by simp)
  have readParents : Json.optional revised "parents" (Json.list? ofJson?) [] =
      if gone "parents" then none else some parents := by
    cases parents with
    | nil => exact (kept "parents" (by decide)).optional_absent
    | cons parent rest => exact (kept "parents" (by decide)).optional rfl (.list above) (by simp)
  simp only [ofJson?, ofFields?, parentsNamed?_eq, Option.bind_eq_bind, readName, readMethods, readSignals,
    readProperties, readSecure, readParents, Json.unless_bind, Json.unless_unless, Option.pure_def,
    Json.Record.fieldNames, fieldNames, List.any_cons, List.any_nil, Bool.or_false]
  -- Parents are read first, though they are written last.
  rw [Bool.or_comm (gone "parents")]
  simp only [Bool.or_assoc]

theorem reads (interface : Interface) : Reads ofJson? (.record .interface) interface.toJson interface := by
  induction interface using parents_induction with
  | step interface above => exact reads_of_parents above

end Interface

theorem ObjectNode.reads (node : ObjectNode) : Reads ofJson? (.record .node) node.toJson node := by
  obtain ⟨name, path, interface⟩ := node
  rintro lost revised (_ | @⟨_, _, _, revised, revision⟩ | _)
  obtain ⟨gone, rfl, kept⟩ := revision.follows (by simp [Json.Record.fieldNames, fieldNames])
  have readName : Json.required revised "name" Json.text? = if gone "name" then none else some name :=
    (kept "name" (by decide)).required rfl (.plain rfl)
  have readPath : Json.required revised "path" Json.text? = if gone "path" then none else some path :=
    (kept "path" (by decide)).required rfl (.plain rfl)
  have readInterface : Json.required revised "interface" Interface.ofJson? =
      if gone "interface" then none else some interface :=
    (kept "interface" (by decide)).required rfl interface.reads
  simp only [ofJson?, Json.fields?, Option.bind_eq_bind, Option.bind_some, readName, readPath, readInterface,
    Json.unless_bind, Json.unless_unless, Option.pure_def, Json.Record.fieldNames, fieldNames, List.any_cons,
    List.any_nil, Bool.or_false]

namespace Json

theorem FieldsRevised.same {record : Record} {fields : List (String × Json)}
    (values : ∀ field ∈ fields, Revised false (record.form field.1) field.2 field.2) :
    FieldsRevised Revised false record fields fields := by
  induction fields with
  | nil => exact .nil
  | cons field rest ih =>
    obtain ⟨first, later⟩ := List.forall_mem_cons.mp values
    exact .keep first (ih later)

theorem Revised.same_list {α : Type} {record : Record} {values : List α} {toJson : α → Json}
    (each : ∀ value ∈ values, Revised false (.record record) (toJson value) (toJson value)) :
    Revised false (.list record) (.array (values.map toJson)) (.array (values.map toJson)) := by
  apply Revised.list
  induction values with
  | nil => exact .nil
  | cons value rest ih =>
    obtain ⟨first, later⟩ := List.forall_mem_cons.mp each
    exact .cons first (ih later)

end Json

open Json (Revised FieldsRevised)

theorem Arg.toJson_same (arg : Arg) : Revised false (.record .arg) arg.toJson arg.toJson := by
  obtain ⟨name, signature, direction, hint⟩ := arg
  refine .record (.same ?_)
  cases hint <;> simp [Json.Record.form, Revised.plain, Direction.toJson]

theorem Method.toJson_same (method : Method) : Revised false (.record .method) method.toJson method.toJson := by
  refine .record (.same ?_)
  simp [Json.Record.form, Revised.plain, Revised.same_list, Arg.toJson_same]

theorem Signal.toJson_same (signal : Signal) : Revised false (.record .signal) signal.toJson signal.toJson := by
  refine .record (.same ?_)
  simp [Json.Record.form, Revised.plain, Revised.same_list, Arg.toJson_same]

theorem Property.toJson_same (property : Property) :
    Revised false (.record .property) property.toJson property.toJson := by
  refine .record (.same ?_)
  simp [Json.Record.form, Revised.plain, Access.toJson]

theorem Interface.toJson_same (interface : Interface) :
    Revised false (.record .interface) interface.toJson interface.toJson := by
  induction interface using Interface.parents_induction with | step interface above
  obtain ⟨name, methods, signals, properties, secure, parents⟩ := interface
  rw [toJson, allToJson_eq]
  refine .record (.same ?_)
  have listed := Revised.same_list above
  cases parents <;>
    simp_all [ownFields, parentFields, Json.Record.form, Revised.plain, Revised.same_list, Method.toJson_same,
      Signal.toJson_same, Property.toJson_same]

theorem ObjectNode.toJson_same (node : ObjectNode) : Revised false (.record .node) node.toJson node.toJson := by
  refine .record (.same ?_)
  simp [Json.Record.form, Revised.plain, Interface.toJson_same]

/-- What is written is read as the same object, also when fields are added that nothing knows or left out that hold
their default, anywhere in it; and nothing is read when a field is left out that is required. -/
theorem ObjectNode.ofJson?_revised (node : ObjectNode) :
    ofJson? node.toJson = some node ∧
      (∀ json, Revised false (.record .node) node.toJson json → ofJson? json = some node) ∧
      ∀ json, Revised true (.record .node) node.toJson json → ofJson? json = none :=
  ⟨node.reads false _ node.toJson_same, node.reads false, node.reads true⟩

def deskLamp : ObjectNode where
  name := "Lamp"
  path := "/Lamp"
  interface := { name := "home.Light", methods := [{ name := "Toggle", noReply := true }] }

/-- The lamp with a remark, with these fields of its method, and without its empty lists. -/
def remarked (method : List (String × Json)) : Json :=
  .object [("name", .string "Lamp"), ("path", .string "/Lamp"),
    ("interface", .object [("remark", .null), ("name", .string "home.Light"), ("methods", .array [.object method])])]

private theorem remarked_revised {lost : Bool} {method : List (String × Json)}
    (revised : FieldsRevised Revised lost .method [("name", .string "Toggle"), ("args", .array []),
      ("no-reply", .bool true), ("secure", .bool false)] method) :
    Revised lost (.record .node) deskLamp.toJson (remarked method) := by
  have methods : Revised (lost || false) (.list .method) (.array [(deskLamp.interface.methods[0]).toJson])
      (.array [.object method]) := .list (.cons (.record revised) .nil)
  have others : FieldsRevised Revised false .interface
      [("signals", .array []), ("properties", .array []), ("secure", .bool false)] [] :=
    .drop rfl (.drop rfl (.drop rfl .nil))
  have interface : Revised _ (.record .interface) deskLamp.interface.toJson
      (.object [("remark", .null), ("name", .string "home.Light"), ("methods", .array [.object method])]) :=
    .record (.add (by decide) (.keep .plain (.keep methods others)))
  have node : Revised _ (.record .node) deskLamp.toJson (remarked method) :=
    .record (.keep .plain (.keep .plain (.keep interface .nil)))
  simpa using node

theorem deskLamp_revised :
    Revised false (.record .node) deskLamp.toJson (remarked [("name", .string "Toggle"), ("no-reply", .bool true)]) ∧
    ObjectNode.ofJson? (remarked [("name", .string "Toggle"), ("no-reply", .bool true)]) = some deskLamp ∧
    Revised true (.record .node) deskLamp.toJson (remarked [("no-reply", .bool true)]) ∧
    ObjectNode.ofJson? (remarked [("no-reply", .bool true)]) = none := by
  have fewer := remarked_revised (.keep .plain (.drop rfl (.keep .plain (.drop rfl .nil))))
  have unnamed := remarked_revised (.lose rfl (.drop rfl (.keep .plain (.drop rfl .nil))))
  obtain ⟨-, kept, lost⟩ := deskLamp.ofJson?_revised
  exact ⟨fewer, kept _ fewer, unnamed, lost _ unnamed⟩

end BusStub
