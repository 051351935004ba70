import BusStub.Proofs.Runs
import BusStub.Proofs.SignatureReading
import BusStub.Registry

/-! What a registry knows about the values it has been shown. The name that a struct is declared under stands
for one signature, and a signature for one type, so all values that need the name keep the same type. -/

namespace BusStub
open Code

theorem Arg.parse_ok {arg : Arg} {member : String} {type : BusType} (parsed : arg.parse member = .ok type) :
    BusType.parse arg.signature = .ok type := by
  unfold Arg.parse at parsed
  split at parsed
  next found read =>
    cases parsed
    exact read
  next => cases parsed

theorem BusType.peel_ne_array (element : BusType) : (type : BusType) → type.peel.1 ≠ .array element
  | .basic _ | .variant | .struct _ | .dict _ _ => nofun
  | .array inner => peel_ne_array element inner

/-- A signature that denotes a type tells what an argument brings in. -/
def Composite.brought? (arg : Arg) : Option (Composite × String) :=
  (BusType.parse arg.signature).toOption.bind (ofArg? arg)

namespace Composite

private theorem shape_eq {arg : Arg} {type : BusType} (denotes : arg.signature = type.text) :
    Scan.shape arg.signature = Scan.shapeOfType type := by
  rw [denotes, Scan.shape_text]

/-- The struct or dictionary below all arrays of a type is what its argument brings in. The signature that is
cut out of the argument's is that type's own. -/
theorem ofArg?_struct {arg : Arg} {type : BusType} {members : List BusType} (denotes : arg.signature = type.text)
    (peeled : type.peel.1 = .struct members) :
    ∃ kind, ofArg? arg type = some
      (⟨kind, arg.name, arg.signature, arg.name ++ "Struct", .struct members⟩, (BusType.struct members).text) := by
  have cut : Scan.innerStruct arg.signature = (BusType.struct members).text := by
    rw [denotes, Scan.innerStruct_text peeled]
  have shape := shape_eq denotes
  cases type with
  | basic | variant | dict => cases peeled
  | struct others =>
    obtain rfl : others = members := by simpa [BusType.peel] using peeled
    exact ⟨.struct, by simp [ofArg?, shape, Scan.shapeOfType, cut]⟩
  | array element => exact ⟨.array, by simp [ofArg?, shape, Scan.shapeOfType, peeled, cut]⟩

theorem ofArg?_dict {arg : Arg} {type : BusType} {key : Scalar} {value : BusType} (denotes : arg.signature = type.text)
    (peeled : type.peel.1 = .dict key value) :
    ∃ kind, ofArg? arg type = some
      (⟨kind, arg.name, arg.signature, arg.name ++ "DictEntry", .dict key value⟩, (BusType.dict key value).text) := by
  have cut : Scan.innerDict arg.signature = (BusType.dict key value).text := by
    rw [denotes, Scan.innerDict_text peeled]
  have shape := shape_eq denotes
  cases type with
  | basic | variant | struct => cases peeled
  | dict key' value' =>
    obtain ⟨rfl, rfl⟩ : key' = key ∧ value' = value := by simpa [BusType.peel] using peeled
    exact ⟨.dict, by simp [ofArg?, shape, Scan.shapeOfType, cut]⟩
  | array element => exact ⟨.array, by simp [ofArg?, shape, Scan.shapeOfType, peeled, cut]⟩

private theorem ofArg?_none {arg : Arg} {type : BusType} (denotes : arg.signature = type.text)
    (plain : (Slot.of type.peel.1).record? = none) : ofArg? arg type = none := by
  have shape := shape_eq denotes
  cases type with
  | basic | variant => simp [ofArg?, shape, Scan.shapeOfType]
  | struct | dict => cases plain
  | array element =>
    cases peeled : (BusType.array element).peel.1 with
    | basic | variant | array => simp [ofArg?, shape, Scan.shapeOfType, peeled]
    | struct | dict =>
      rw [peeled] at plain
      cases plain

theorem brought?_of_parse {arg : Arg} {type : BusType} (parsed : BusType.parse arg.signature = .ok type) :
    brought? arg = ofArg? arg type := by
  simp [brought?, parsed, Except.toOption]

theorem brought?_congr {arg other : Arg} (name : other.name = arg.name) (signature : other.signature = arg.signature) :
    brought? other = brought? arg := by
  have same : ofArg? other = ofArg? arg := by
    funext type
    simp only [ofArg?, name, signature]
  rw [brought?, brought?, signature, same]

/-- What an entry says about the argument that brought it in. -/
structure From (arg : Arg) (type : BusType) (entry : Composite) (text : String) : Prop where
  argName : entry.argName = arg.name
  signature : entry.signature = arg.signature
  declared : entry.declared = type.peel.1
  text : text = entry.declared.text
  typeName : (Slot.of entry.declared).recordName? arg.name = some entry.typeName

theorem ofArg?_spec {arg : Arg} {type : BusType} {entry : Composite} {text : String}
    (parsed : BusType.parse arg.signature = .ok type) (found : ofArg? arg type = some (entry, text)) :
    entry.From arg type text := by
  have denotes := (BusType.text_of_parse parsed).symm
  cases peeled : type.peel.1 with
  | struct members =>
    obtain ⟨kind, same⟩ := ofArg?_struct denotes peeled
    rw [same] at found
    cases found
    exact ⟨rfl, rfl, peeled.symm, rfl, rfl⟩
  | dict key value =>
    obtain ⟨kind, same⟩ := ofArg?_dict denotes peeled
    rw [same] at found
    cases found
    exact ⟨rfl, rfl, peeled.symm, rfl, rfl⟩
  | basic | variant =>
    rw [ofArg?_none denotes (by rw [peeled]; rfl)] at found
    cases found
  | array element => exact absurd peeled (BusType.peel_ne_array element type)

theorem brought?_spec {arg : Arg} {entry : Composite} {text : String} (brought : brought? arg = some (entry, text)) :
    ∃ type, BusType.parse arg.signature = .ok type ∧ entry.From arg type text := by
  cases parsed : BusType.parse arg.signature with
  | error fault => simp [brought?, parsed, Except.toOption] at brought
  | ok type =>
    rw [brought?_of_parse parsed] at brought
    exact ⟨type, rfl, ofArg?_spec parsed brought⟩

theorem ofArg?_some {arg : Arg} {type : BusType} {record : String} (parsed : BusType.parse arg.signature = .ok type)
    (kept : (Slot.of type.peel.1).recordName? arg.name = some record) :
    ∃ entry text, ofArg? arg type = some (entry, text) ∧ entry.typeName = record := by
  have denotes := (BusType.text_of_parse parsed).symm
  cases peeled : type.peel.1 with
  | struct members =>
    obtain ⟨kind, same⟩ := ofArg?_struct denotes peeled
    rw [peeled] at kept
    refine ⟨_, _, same, ?_⟩
    exact Option.some.inj kept
  | dict key value =>
    obtain ⟨kind, same⟩ := ofArg?_dict denotes peeled
    rw [peeled] at kept
    refine ⟨_, _, same, ?_⟩
    exact Option.some.inj kept
  | basic | variant =>
    rw [peeled] at kept
    cases kept
  | array element => exact absurd peeled (BusType.peel_ne_array element type)

end Composite

namespace Registry

/-- The registry has exactly the entries that the values seen so far have brought in, the name of each
stands for the signature of its type, and no other names are taken. -/
structure Describes (seen : List Arg) (registry : Registry) : Prop where
  sound : ∀ kind, ∀ entry ∈ registry.entries kind, ∃ arg ∈ seen, ∃ text,
    Composite.brought? arg = some (entry, text) ∧ registry.names.lookup entry.typeName = some text
  complete : ∀ arg ∈ seen, ∀ entry text, Composite.brought? arg = some (entry, text) →
    entry ∈ registry.entries entry.kind
  named : ∀ name text, registry.names.lookup name = some text →
    ∃ arg ∈ seen, ∃ entry, Composite.brought? arg = some (entry, text) ∧ entry.typeName = name

theorem mem_push {registry : Registry} {entry other : Composite} {kind : CompositeKind} :
    other ∈ (registry.push entry).entries kind ↔
      other ∈ registry.entries kind ∨ kind = entry.kind ∧ other = entry := by
  cases kind <;> cases own : entry.kind <;> simp [push, own, entries]

theorem push_names (registry : Registry) (entry : Composite) : (registry.push entry).names = registry.names := by
  unfold push
  split <;> rfl

section
variable {seen : List Arg} {registry next : Registry} {arg : Arg} {entry : Composite} {text : String}

namespace Describes

private theorem known (describes : registry.Describes seen)
    (present : ∀ entry text, Composite.brought? arg = some (entry, text) → entry ∈ registry.entries entry.kind) :
    registry.Describes (seen ++ [arg]) where
  sound kind other member := by
    obtain ⟨source, before, facts⟩ := describes.sound kind other member
    exact ⟨source, List.mem_append_left _ before, facts⟩
  complete source member other signature found := by
    rcases List.mem_append.mp member with before | last
    · exact describes.complete source before other signature found
    · obtain rfl := List.mem_singleton.mp last
      exact present other signature found
  named name text stands := by
    obtain ⟨source, before, facts⟩ := describes.named name text stands
    exact ⟨source, List.mem_append_left _ before, facts⟩

private theorem extended (describes : registry.Describes seen) (brought : Composite.brought? arg = some (entry, text))
    (names : List (String × String)) (kept : ∀ name, registry.names.lookup name ≠ none →
      names.lookup name = registry.names.lookup name) (named : names.lookup entry.typeName = some text)
    (only : ∀ name, registry.names.lookup name = none → names.lookup name ≠ none → name = entry.typeName) :
    ({ registry with names }.push entry).Describes (seen ++ [arg]) where
  sound kind other member := by
    rw [push_names]
    rcases mem_push.mp member with before | ⟨-, rfl⟩
    · obtain ⟨source, earlier, signature, found, stands⟩ := describes.sound kind other before
      exact ⟨source, List.mem_append_left _ earlier, signature, found, by simp [kept, stands]⟩
    · exact ⟨arg, by simp, text, brought, named⟩
  complete source member other signature found := by
    rcases List.mem_append.mp member with before | last
    · exact mem_push.mpr (.inl (describes.complete source before other signature found))
    · obtain rfl := List.mem_singleton.mp last
      rw [brought] at found
      cases found
      exact mem_push.mpr (.inr ⟨rfl, rfl⟩)
  named name signature stands := by
    rw [push_names] at stands
    cases before : registry.names.lookup name with
    | some _ =>
      rw [kept name (by simp [before])] at stands
      obtain ⟨source, earlier, facts⟩ := describes.named name signature stands
      exact ⟨source, List.mem_append_left _ earlier, facts⟩
    | none =>
      obtain rfl := only name before (by simp [stands])
      obtain rfl := Option.some.inj (named.symm.trans stands)
      exact ⟨arg, by simp, entry, brought, rfl⟩

/-- An entry that looks like one which is already there is that entry: both come from the same signature. -/
theorem same_entry (describes : registry.Describes seen) (brought : Composite.brought? arg = some (entry, text))
    {other : Composite} (member : other ∈ registry.entries entry.kind) (argName : other.argName = entry.argName)
    (signature : other.signature = entry.signature) : other = entry := by
  obtain ⟨source, -, found, bringing, -⟩ := describes.sound entry.kind other member
  obtain ⟨type, -, theirs⟩ := Composite.brought?_spec bringing
  obtain ⟨type, -, ours⟩ := Composite.brought?_spec brought
  have name : source.name = arg.name := by rw [← theirs.argName, argName, ours.argName]
  have whole : source.signature = arg.signature := by rw [← theirs.signature, signature, ours.signature]
  rw [Composite.brought?_congr name whole, brought] at bringing
  cases bringing
  rfl

theorem insert (describes : registry.Describes seen) (brought : Composite.brought? arg = some (entry, text))
    (inserted : registry.insert entry text = .ok next) : next.Describes (seen ++ [arg]) := by
  simp only [Registry.insert] at inserted
  split at inserted
  next present =>
    -- The registry stays as it is: what the value brings in is already there.
    cases inserted
    obtain ⟨other, member, same⟩ := List.any_eq_true.mp present
    obtain ⟨argName, signature⟩ : other.argName = entry.argName ∧ other.signature = entry.signature := by
      simpa using same
    obtain rfl := describes.same_entry brought member argName signature
    refine describes.known fun entry text found => ?_
    rw [brought] at found
    cases found
    exact member
  next absent =>
    split at inserted
    next existing stands =>
      split at inserted
      next same =>
        cases inserted
        refine describes.extended brought registry.names (fun _ _ => rfl) (by rw [stands, same]) ?_
        exact fun name free taken => absurd free taken
      next => cases inserted
    next fresh =>
      cases inserted
      refine describes.extended brought _ ?_ ?_ ?_
      · intro name stands
        cases lookup : registry.names.lookup name with
        | none => exact absurd lookup stands
        | some _ => rw [List.lookup_append, lookup, Option.some_or]
      · rw [List.lookup_append, fresh]
        simp
      · intro name free taken
        by_contra other
        simp [List.lookup_append, free, List.lookup_cons, beq_eq_false_iff_ne.mpr other] at taken

theorem consider {value : String × Arg} (describes : registry.Describes seen)
    (considered : registry.consider value = .ok next) : next.Describes (seen ++ [value.2]) := by
  obtain ⟨type, parsed, considered⟩ := bind_ok considered
  have brings := Composite.brought?_of_parse (Arg.parse_ok parsed)
  split at considered
  next nothing =>
    cases considered
    exact describes.known (by simp [brings, nothing])
  next entry text found => exact describes.insert (brings.trans found) considered

/-- Two entries of one type name declare the same type. -/
theorem declared_eq {first second : Composite} {kind kind' : CompositeKind} (describes : registry.Describes seen)
    (one : first ∈ registry.entries kind) (other : second ∈ registry.entries kind')
    (same : first.typeName = second.typeName) : first.declared = second.declared := by
  obtain ⟨arg, -, text, brought, stands⟩ := describes.sound kind first one
  obtain ⟨arg', -, text', brought', stands'⟩ := describes.sound kind' second other
  obtain ⟨type, -, ours⟩ := Composite.brought?_spec brought
  obtain ⟨type', -, theirs⟩ := Composite.brought?_spec brought'
  obtain rfl : text = text' := by
    rw [same, stands'] at stands
    exact (Option.some.inj stands).symm
  exact BusType.text_inj (ours.text.symm.trans theirs.text)

end Describes
end

theorem scanned_describes {values : List (String × Arg)} {interface : String} {registry : Registry}
    (scanned : values.foldlM consider { interface := some interface } = .ok registry) :
    registry.Describes (values.map Prod.snd) := by
  refine foldlM_ok (fun before state => Describes (before.map Prod.snd) state) scanned ?_ ?_
  · exact ⟨fun kind => by cases kind <;> exact nofun, nofun, nofun⟩
  · intro before value state next describes considered
    simpa using describes.consider considered

theorem discover_describes {interface : Interface} {registry : Registry}
    (discovered : discover interface = .ok registry) : registry.Describes (interface.values.map Prod.snd) :=
  scanned_describes discovered

theorem firstPerName_nodup (entries : List Composite) (seen : List String) :
    ((firstPerName seen entries).map Composite.typeName).Nodup ∧
    ∀ entry ∈ firstPerName seen entries, entry.typeName ∉ seen := by
  induction entries generalizing seen with
  | nil => exact ⟨.nil, nofun⟩
  | cons entry rest ih =>
    rw [firstPerName]
    split
    · exact ih seen
    next fresh =>
      obtain ⟨nodup, others⟩ := ih (entry.typeName :: seen)
      refine ⟨List.nodup_cons.mpr ⟨?_, nodup⟩, List.forall_mem_cons.mpr ⟨by simpa using fresh, ?_⟩⟩
      · rintro again
        obtain ⟨other, member, same⟩ := List.mem_map.mp again
        exact others other member (by simp [same])
      · intro other member inside
        exact others other member (List.mem_cons_of_mem _ inside)

theorem firstPerName_subset (entries : List Composite) (seen : List String) : firstPerName seen entries ⊆ entries := by
  induction entries generalizing seen with
  | nil => exact List.Subset.refl _
  | cons entry rest ih =>
    rw [firstPerName]
    split
    · exact List.subset_cons_of_subset _ (ih seen)
    · exact List.cons_subset_cons _ (ih _)

theorem firstPerName_covers {entries : List Composite} {seen : List String} {entry : Composite}
    (member : entry ∈ entries) (fresh : entry.typeName ∉ seen) :
    ∃ first ∈ firstPerName seen entries, first.typeName = entry.typeName := by
  induction entries generalizing seen with
  | nil => cases member
  | cons other rest ih =>
    rw [firstPerName]
    split
    next inside =>
      rcases List.mem_cons.mp member with rfl | member
      · exact absurd (by simpa using inside) fresh
      · exact ih member fresh
    next =>
      by_cases same : other.typeName = entry.typeName
      · exact ⟨other, List.mem_cons_self .., same⟩
      · rcases List.mem_cons.mp member with rfl | member
        · exact absurd rfl same
        · have unseen : entry.typeName ∉ other.typeName :: seen := by simp [fresh, Ne.symm same]
          obtain ⟨first, found, named⟩ := ih member unseen
          exact ⟨first, List.mem_cons_of_mem _ found, named⟩

theorem declarations_nodup (registry : Registry) : (registry.declarations.map Composite.typeName).Nodup :=
  (firstPerName_nodup _ []).1

theorem mem_entries {registry : Registry} {entry : Composite} :
    entry ∈ registry.structs ++ registry.dicts ++ registry.arrays ↔ ∃ kind, entry ∈ registry.entries kind := by
  constructor
  · intro member
    rcases List.mem_append.mp member with member | member
    · rcases List.mem_append.mp member with member | member
      · exact ⟨.struct, member⟩
      · exact ⟨.dict, member⟩
    · exact ⟨.array, member⟩
  · rintro ⟨kind, member⟩
    cases kind <;> simp only [entries] at member <;> simp [member]

/-- The struct that keeps a value is declared, and declared for the value's own type. -/
theorem Describes.declares {seen : List Arg} {registry : Registry} {arg : Arg} {type : BusType} {record : String}
    (describes : registry.Describes seen) (member : arg ∈ seen) (parsed : BusType.parse arg.signature = .ok type)
    (kept : (Slot.of type.peel.1).recordName? arg.name = some record) :
    ∃ entry ∈ registry.declarations, entry.typeName = record ∧ entry.declared = type.peel.1 := by
  obtain ⟨entry, text, found, rfl⟩ := Composite.ofArg?_some parsed kept
  have spec := Composite.ofArg?_spec parsed found
  have inside := describes.complete arg member entry text ((Composite.brought?_of_parse parsed).trans found)
  obtain ⟨first, declared, same⟩ :=
    firstPerName_covers (mem_entries.mpr ⟨_, inside⟩) (List.not_mem_nil (a := entry.typeName))
  obtain ⟨kind, present⟩ := mem_entries.mp (firstPerName_subset _ _ declared)
  exact ⟨first, declared, same, (describes.declared_eq present inside same).trans spec.declared⟩

end Registry
end BusStub
