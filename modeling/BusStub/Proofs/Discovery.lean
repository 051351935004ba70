import BusStub.Proofs.Refusals
import Mathlib.Data.List.Induction

/-! What discovery finds, and where it stops. A registry holds the composites of the values it was shown, each once,
in the order in which they came. A value is refused for a signature that denotes no type, or when an earlier value
has its composite's name for another type. Nothing that a registry held before plays a part. -/

namespace BusStub

/-- The kind of composite that a type is, if it is one. -/
def BusType.compositeKind : BusType → CompositeKind
  | .array _ => .array
  | .dict _ _ => .dict
  | .struct _ | .basic _ | .variant => .struct

namespace Composite

/-- What a name and a signature bring in together: a struct or a dictionary, below any number of array levels. -/
def of? (name signature : String) : Option Composite :=
  match BusType.parse signature with
  | .error _ => none
  | .ok type => match type.peel.1 with
    | .struct members => some ⟨type.compositeKind, name, signature, name ++ "Struct", .struct members⟩
    | .dict key value => some ⟨type.compositeKind, name, signature, name ++ "DictEntry", .dict key value⟩
    | .basic _ | .variant | .array _ => none

/-- The composites of values, each where its name and signature are first seen together. -/
def firstSeen (seen : List Arg) : List Composite :=
  (seen.map fun arg => (arg.name, arg.signature)).eraseDups.filterMap fun (name, signature) => of? name signature

/-- Two composites need one name for different types. -/
def Clashes (entry other : Composite) : Prop :=
  entry.typeName = other.typeName ∧ entry.declared ≠ other.declared

end Composite

/-- Why a value cannot come after others. -/
inductive Refuses (seen : List Arg) (value : String × Arg) : StubError → Prop where
  | unread (cause : SignatureError) (failed : BusType.parse value.2.signature = .error cause) :
      Refuses seen value (.signature value.1 value.2.name cause)
  | taken (first : Arg) (existing entry : Composite) (before : first ∈ seen)
      (theirs : Composite.of? first.name first.signature = some existing)
      (own : Composite.of? value.2.name value.2.signature = some entry) (clash : entry.Clashes existing) :
      Refuses seen value (.collision entry.typeName existing.declared.text entry.declared.text)

/-- The error is that of the first value which cannot come after those before it. -/
def FirstRefused (values : List (String × Arg)) (error : StubError) : Prop :=
  ∃ before value after, values = before ++ value :: after ∧ Refuses (before.map Prod.snd) value error ∧
    ∀ earlier other rest, before = earlier ++ other :: rest → ∀ fault, ¬Refuses (earlier.map Prod.snd) other fault

namespace Composite

/-- What is cut out of a signature is the text of the type that is found in it. -/
theorem brought?_eq (arg : Arg) :
    brought? arg = (of? arg.name arg.signature).map fun entry => (entry, entry.declared.text) := by
  cases parsed : BusType.parse arg.signature with
  | error cause => simp [brought?, of?, parsed, Except.toOption]
  | ok type =>
    have denotes := (BusType.text_of_parse parsed).symm
    have shape : Scan.shape arg.signature = Scan.shapeOfType type := by rw [denotes, Scan.shape_text]
    rw [brought?_of_parse parsed, of?, parsed]
    cases peeled : type.peel.1 with
    | array element => exact absurd peeled (BusType.peel_ne_array element type)
    | basic | variant =>
      cases type with
      | struct | dict => cases peeled
      | basic | variant | array => simp [ofArg?, shape, Scan.shapeOfType, peeled]
    | struct members =>
      have cut : Scan.innerStruct arg.signature = (BusType.struct members).text := by
        rw [denotes, Scan.innerStruct_text peeled]
      cases type with
      | basic | variant | dict => cases peeled
      | struct others =>
        cases peeled
        simp [ofArg?, shape, Scan.shapeOfType, cut, BusType.compositeKind, BusType.peel]
      | array element => simp [ofArg?, shape, Scan.shapeOfType, peeled, cut, BusType.compositeKind]
    | dict key value =>
      have cut : Scan.innerDict arg.signature = (BusType.dict key value).text := by
        rw [denotes, Scan.innerDict_text peeled]
      cases type with
      | basic | variant | struct => cases peeled
      | dict key' value' =>
        cases peeled
        simp [ofArg?, shape, Scan.shapeOfType, cut, BusType.compositeKind, BusType.peel]
      | array element => simp [ofArg?, shape, Scan.shapeOfType, peeled, cut, BusType.compositeKind]

theorem brought?_iff {arg : Arg} {entry : Composite} {text : String} :
    brought? arg = some (entry, text) ↔ of? arg.name arg.signature = some entry ∧ text = entry.declared.text := by
  rw [brought?_eq]
  cases of? arg.name arg.signature with
  | none => simp
  | some found =>
    simp only [Option.map_some, Option.some.injEq, Prod.mk.injEq]
    exact ⟨fun ⟨same, text⟩ => ⟨same, by rw [← text, same]⟩, fun ⟨same, text⟩ => ⟨same, by rw [text, same]⟩⟩

theorem of?_key {name signature : String} {entry : Composite} (found : of? name signature = some entry) :
    entry.argName = name ∧ entry.signature = signature := by
  unfold of? at found
  split at found
  · cases found
  · split at found <;> cases found <;> exact ⟨rfl, rfl⟩

private theorem eraseDups_concat {α : Type} [BEq α] [LawfulBEq α] (items : List α) (item : α) :
    (items ++ [item]).eraseDups = items.eraseDups ++ if item ∈ items then [] else [item] := by
  rw [List.eraseDups_append, List.removeAll]
  split
  next known => rw [List.filter_cons_of_neg (by simpa using known), List.filter_nil, List.eraseDups_nil]
  next fresh =>
    rw [List.filter_cons_of_pos (by simpa using fresh), List.filter_nil]
    rfl

private theorem nodup_eraseDups {α : Type} [BEq α] [LawfulBEq α] (items : List α) : items.eraseDups.Nodup := by
  induction items using List.reverseRecOn with
  | nil => exact .nil
  | append_singleton items item ih =>
    rw [eraseDups_concat]
    split
    · simpa using ih
    next fresh =>
      rw [← List.concat_eq_append]
      exact ih.concat (mt List.mem_eraseDups.mp fresh)

private theorem keys_sublist {find : String × String → Option Composite}
    (own : ∀ key entry, find key = some entry → (entry.argName, entry.signature) = key)
    (keys : List (String × String)) :
    ((keys.filterMap find).map fun entry => (entry.argName, entry.signature)).Sublist keys := by
  induction keys with
  | nil => exact .slnil
  | cons key rest ih =>
    cases found : find key with
    | none =>
      rw [List.filterMap_cons_none found]
      exact ih.cons key
    | some entry =>
      rw [List.filterMap_cons_some found, List.map_cons, own key entry found]
      exact ih.cons_cons key

theorem firstSeen_nodup (seen : List Arg) :
    ((firstSeen seen).map fun entry => (entry.argName, entry.signature)).Nodup := by
  refine (nodup_eraseDups _).sublist (keys_sublist ?_ _)
  intro key entry found
  obtain ⟨name, signature⟩ := of?_key found
  rw [name, signature]

theorem firstSeen_append (seen : List Arg) (arg : Arg) :
    firstSeen (seen ++ [arg]) = firstSeen seen ++
      if (arg.name, arg.signature) ∈ seen.map (fun other => (other.name, other.signature)) then []
      else (of? arg.name arg.signature).toList := by
  rw [firstSeen, List.map_append, List.map_singleton, eraseDups_concat, List.filterMap_append, firstSeen]
  split
  · simp
  · cases found : of? arg.name arg.signature <;> simp [found]

end Composite

namespace Registry

/-- Whether an entry is already there is told by the name and the signature of its argument. -/
def Knows (registry : Registry) (entry : Composite) : Prop :=
  ∃ other ∈ registry.entries entry.kind, other.argName = entry.argName ∧ other.signature = entry.signature

theorem any_iff_knows {registry : Registry} {entry : Composite} :
    (registry.entries entry.kind).any (fun other =>
      other.argName = entry.argName && other.signature = entry.signature) = true ↔ registry.Knows entry := by
  simp [Knows]

section
variable {seen : List Arg} {registry next : Registry} {value : String × Arg}

theorem Describes.lookup_typeName {entry : Composite} {kind : CompositeKind} (describes : registry.Describes seen)
    (member : entry ∈ registry.entries kind) : registry.names.lookup entry.typeName = some entry.declared.text := by
  obtain ⟨source, -, text, bringing, stands⟩ := describes.sound kind entry member
  rw [stands, (Composite.brought?_iff.mp bringing).2]

/-- A registry that describes values refuses exactly what cannot come after them. -/
theorem Describes.consider_error_iff {error : StubError} (describes : registry.Describes seen) :
    registry.consider value = .error error ↔ Refuses seen value error := by
  constructor
  · intro failed
    rcases bind_error failed with unread | ⟨type, read, failed⟩
    · obtain ⟨cause, undenoted, rfl⟩ := Arg.parse_error unread
      exact .unread cause undenoted
    have brings := Composite.brought?_of_parse (Arg.parse_ok read)
    split at failed
    · cases failed
    next entry text found =>
      obtain ⟨existing, stands, different, rfl⟩ := insert_error failed
      obtain ⟨own, rfl⟩ := Composite.brought?_iff.mp (brings.trans found)
      obtain ⟨first, before, other, brought, same⟩ := describes.named _ _ stands
      obtain ⟨theirs, rfl⟩ := Composite.brought?_iff.mp brought
      refine .taken first other entry before theirs own ⟨same.symm, ?_⟩
      intro equal
      exact different (by rw [equal])
  · rintro (⟨cause, failed⟩ | ⟨first, existing, entry, before, theirs, own, name, different⟩)
    · simp [Registry.consider, Arg.parse, failed, bind, Except.bind]
    · have earlier := Composite.brought?_iff.mpr ⟨theirs, rfl⟩
      have brought := Composite.brought?_iff.mpr ⟨own, rfl⟩
      obtain ⟨type, parsed, -⟩ := Composite.brought?_spec brought
      have found := (Composite.brought?_of_parse parsed).symm.trans brought
      have inside := describes.complete first before existing _ earlier
      have fresh : ¬registry.Knows entry := by
        rintro ⟨other, member, argName, signature⟩
        obtain rfl := describes.same_entry brought member argName signature
        exact different (describes.declared_eq member inside name)
      have absent := mt any_iff_knows.mp fresh
      have stands := describes.lookup_typeName inside
      rw [← name] at stands
      have texts : existing.declared.text ≠ entry.declared.text := fun same => different (BusType.text_inj same).symm
      simp only [Registry.consider, Arg.parse, parsed, bind, Except.bind, found, Registry.insert, absent, stands, texts]
      rfl

theorem entries_push (registry : Registry) (entry : Composite) (kind : CompositeKind) :
    (registry.push entry).entries kind = registry.entries kind ++ if entry.kind = kind then [entry] else [] := by
  cases kind <;> cases own : entry.kind <;> simp [push, own, entries]

theorem insert_ok {entry : Composite} {text : String} (inserted : registry.insert entry text = .ok next) :
    registry.Knows entry ∧ next = registry ∨
      ¬registry.Knows entry ∧ ∃ names, next = { registry with names }.push entry := by
  simp only [Registry.insert] at inserted
  split at inserted
  next present =>
    cases inserted
    exact .inl ⟨any_iff_knows.mp present, rfl⟩
  next absent =>
    refine .inr ⟨mt any_iff_knows.mpr absent, ?_⟩
    split at inserted
    · split at inserted <;> cases inserted
      exact ⟨registry.names, rfl⟩
    · cases inserted
      exact ⟨_, rfl⟩

theorem Describes.knows_iff {arg : Arg} {entry : Composite} (describes : registry.Describes seen)
    (own : Composite.of? arg.name arg.signature = some entry) :
    registry.Knows entry ↔ (arg.name, arg.signature) ∈ seen.map fun other => (other.name, other.signature) := by
  have key := Composite.of?_key own
  constructor
  · rintro ⟨other, member, argName, signature⟩
    obtain ⟨source, before, text, bringing, -⟩ := describes.sound _ other member
    have theirs := Composite.of?_key (Composite.brought?_iff.mp bringing).1
    refine List.mem_map.mpr ⟨source, before, ?_⟩
    rw [← theirs.1, ← theirs.2, argName, signature, key.1, key.2]
  · intro known
    obtain ⟨source, before, same⟩ := List.mem_map.mp known
    obtain ⟨name, signature⟩ := Prod.mk.inj same
    rw [← name, ← signature] at own
    exact ⟨entry, describes.complete source before entry _ (Composite.brought?_iff.mpr ⟨own, rfl⟩), rfl, rfl⟩

/-- A value adds its composite unless an earlier one has the same name and signature. -/
theorem Describes.consider_entries (describes : registry.Describes seen)
    (considered : registry.consider value = .ok next)
    (listed : ∀ kind, registry.entries kind = (Composite.firstSeen seen).filter (·.kind = kind))
    (kind : CompositeKind) :
    next.entries kind = (Composite.firstSeen (seen ++ [value.2])).filter (·.kind = kind) := by
  obtain ⟨type, parsed, considered⟩ := bind_ok considered
  have brings := Composite.brought?_of_parse (Arg.parse_ok parsed)
  rw [Composite.firstSeen_append, List.filter_append, ← listed kind]
  split at considered
  next nothing =>
    cases considered
    have none : Composite.of? value.2.name value.2.signature = none := by
      simpa [Composite.brought?_eq, nothing] using brings
    simp [none]
  next entry text found =>
    obtain ⟨own, rfl⟩ := Composite.brought?_iff.mp (brings.trans found)
    rcases insert_ok considered with ⟨known, rfl⟩ | ⟨fresh, names, rfl⟩
    · rw [if_pos ((describes.knows_iff own).mp known)]
      simp
    · rw [if_neg (mt (describes.knows_iff own).mpr fresh), entries_push, own]
      by_cases same : entry.kind = kind <;> simp [same, entries]

theorem consider_interface (considered : registry.consider value = .ok next) :
    next.interface = registry.interface := by
  obtain ⟨type, -, considered⟩ := bind_ok considered
  split at considered
  · cases considered
    rfl
  · rcases insert_ok considered with ⟨-, rfl⟩ | ⟨-, names, rfl⟩
    · rfl
    · unfold push
      split <;> rfl

end

section
variable {values : List (String × Arg)} {name : String}

theorem scan_entries {registry : Registry}
    (scanned : values.foldlM consider { interface := some name } = .ok registry) :
    registry.interface = some name ∧
      ∀ kind, registry.entries kind = (Composite.firstSeen (values.map Prod.snd)).filter (·.kind = kind) := by
  have nothing : ([] : List (String × Arg)).foldlM consider { interface := some name } =
      .ok { interface := some name } := rfl
  refine (foldlM_ok (fun before state => state.Describes (before.map Prod.snd) ∧ state.interface = some name ∧
    ∀ kind, state.entries kind = (Composite.firstSeen (before.map Prod.snd)).filter (·.kind = kind)) scanned ?_ ?_).2
  · exact ⟨scanned_describes nothing, rfl, fun kind => by cases kind <;> rfl⟩
  · rintro before value state next ⟨describes, interface, listed⟩ considered
    rw [List.map_append, List.map_singleton]
    exact ⟨describes.consider considered, (consider_interface considered).trans interface,
      describes.consider_entries considered listed⟩

/-- A scan that succeeds has refused no value. -/
theorem scan_refuses {registry : Registry} (scanned : values.foldlM consider { interface := some name } = .ok registry)
    {before after : List (String × Arg)} {value : String × Arg} {error : StubError}
    (parts : values = before ++ value :: after) : ¬Refuses (before.map Prod.snd) value error := by
  intro refused
  rw [parts, List.foldlM_append] at scanned
  obtain ⟨state, reached, scanned⟩ := bind_ok scanned
  rw [List.foldlM_cons, ((scanned_describes reached).consider_error_iff).mpr refused] at scanned
  cases scanned

theorem scan_error_iff {error : StubError} :
    values.foldlM consider { interface := some name } = .error error ↔ FirstRefused values error := by
  constructor
  · intro failed
    obtain ⟨before, value, after, state, parts, reached, failed⟩ := foldlM_error failed
    exact ⟨before, value, after, parts, (scanned_describes reached).consider_error_iff.mp failed,
      fun earlier other rest parts fault => scan_refuses reached parts⟩
  · rintro ⟨before, value, after, rfl, refused, accepted⟩
    cases reached : before.foldlM consider { interface := some name } with
    | error fault =>
      obtain ⟨earlier, other, rest, state, parts, reached, failed⟩ := foldlM_error reached
      exact absurd ((scanned_describes reached).consider_error_iff.mp failed) (accepted earlier other rest parts fault)
    | ok state =>
      have failed := ((scanned_describes reached).consider_error_iff).mpr refused
      rw [List.foldlM_append, reached]
      change (value :: after).foldlM consider state = _
      rw [List.foldlM_cons, failed]
      rfl

end

/-- Two values whose composites clash cannot both be scanned, in whichever order they come. -/
theorem discover_error_exists_iff {interface : Interface} :
    (∃ error, discover interface = .error error) ↔
      (∃ value ∈ interface.values, ∃ cause, BusType.parse value.2.signature = .error cause) ∨
      ∃ first ∈ interface.values, ∃ second ∈ interface.values, ∃ entry other,
        Composite.of? first.2.name first.2.signature = some entry ∧
        Composite.of? second.2.name second.2.signature = some other ∧ entry.Clashes other := by
  constructor
  · rintro ⟨error, failed⟩
    obtain ⟨before, value, after, parts, refused, -⟩ := scan_error_iff.mp failed
    have member : value ∈ interface.values := by simp [parts]
    cases refused with
    | unread cause undenoted => exact .inl ⟨value, member, cause, undenoted⟩
    | taken first existing entry seen theirs own clash =>
      obtain ⟨earlier, inside, rfl⟩ := List.mem_map.mp seen
      exact .inr ⟨value, member, earlier, by simp [parts, inside], entry, existing, own, theirs, clash⟩
  · intro fault
    cases discovered : discover interface with
    | error error => exact ⟨error, rfl⟩
    | ok registry =>
      exfalso
      rcases fault with ⟨value, member, cause, failed⟩ | ⟨first, one, second, two, entry, other, own, theirs, clash⟩
      · obtain ⟨before, after, parts⟩ := List.append_of_mem member
        exact scan_refuses discovered parts (.unread cause failed)
      · have describes := discover_describes discovered
        have here := describes.complete _ (List.mem_map_of_mem one) entry _ (Composite.brought?_iff.mpr ⟨own, rfl⟩)
        have there := describes.complete _ (List.mem_map_of_mem two) other _ (Composite.brought?_iff.mpr ⟨theirs, rfl⟩)
        exact clash.2 (describes.declared_eq here there clash.1)

/-- Whatever a registry held, it then describes the new interface as a fresh one would, or nothing after an error.
Discovery stops at the first value that cannot come after those before it; there is one exactly when a signature
denotes no type or two composites clash. Else each kind of composite is listed as the values bring them in. -/
theorem restart_discovers (registry : Registry) (interface : Interface) :
    (registry.restart interface = match discover interface with
      | .ok described => (described, none)
      | .error error => ({}, some error)) ∧
    (∀ error, discover interface = .error error ↔ FirstRefused interface.values error) ∧
    ((∃ error, discover interface = .error error) ↔
      (∃ value ∈ interface.values, ∃ cause, BusType.parse value.2.signature = .error cause) ∨
      ∃ first ∈ interface.values, ∃ second ∈ interface.values, ∃ entry other,
        Composite.of? first.2.name first.2.signature = some entry ∧
        Composite.of? second.2.name second.2.signature = some other ∧ entry.Clashes other) ∧
    ∀ described, discover interface = .ok described → described.interface = some interface.name ∧
      ∀ kind, described.entries kind =
          (Composite.firstSeen (interface.values.map Prod.snd)).filter (·.kind = kind) ∧
        ((described.entries kind).map fun entry => (entry.argName, entry.signature)).Nodup := by
  refine ⟨rfl, fun error => scan_error_iff, discover_error_exists_iff, fun described discovered => ?_⟩
  obtain ⟨named, listed⟩ := scan_entries discovered
  refine ⟨named, fun kind => ⟨listed kind, ?_⟩⟩
  rw [listed kind]
  exact (Composite.firstSeen_nodup _).sublist (List.filter_sublist.map _)

/-- Two methods have points of different types. -/
def draft : Interface :=
  { name := "org.map.Draft"
    methods :=
      [{ name := "Move", args := [⟨"point", "(ii)", .input, none⟩] },
       { name := "Mark", args := [⟨"point", "(ss)", .input, none⟩] }] }

def routes : Interface :=
  { name := "org.map.Routes"
    methods :=
      [{ name := "Move", args := [⟨"point", "(ii)", .input, none⟩, ⟨"speed", "d", .input, none⟩] },
       { name := "Trace", args := [⟨"path", "aa(ii)", .input, none⟩] },
       { name := "Retrace", args := [⟨"path", "aa(ii)", .output, none⟩] }]
    properties := [⟨"lengths", "a{sd}", .read⟩] }

/-- A struct, an array of it that comes twice and a dictionary, after an interface that was refused. -/
theorem restart_discovers_routes :
    let earlier := ({} : Registry).restart draft
    earlier.2 = some (.collision "pointStruct" "(ii)" "(ss)") ∧
      ∃ described, discover routes = .ok described ∧ (earlier.1.restart routes).1 = described ∧
        described.arrays = [⟨.array, "path", "aa(ii)", "pathStruct", .struct [.basic .int32, .basic .int32]⟩] ∧
        described.interface = some "org.map.Routes" ∧ ∀ kind, described.entries kind =
          (Composite.firstSeen (routes.values.map Prod.snd)).filter (·.kind = kind) ∧
        ((described.entries kind).map fun entry => (entry.argName, entry.signature)).Nodup := by
  intro earlier
  obtain ⟨described, discovered⟩ : ∃ described, discover routes = .ok described := ⟨_, rfl⟩
  have spec := restart_discovers earlier.1 routes
  refine ⟨rfl, described, discovered, ?_, ?_, spec.2.2.2 described discovered⟩
  · rw [spec.1, discovered]
  · cases discovered
    rfl

end Registry
end BusStub
