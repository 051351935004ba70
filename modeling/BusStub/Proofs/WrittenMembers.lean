import BusStub.Proofs.Readings

/-! What the element of an interface says: its members and their arguments in document order, with the numbers that
unnamed arguments get among those of their role. A reading that succeeds finds exactly this. -/

namespace BusStub

open Xml (Element)

variable {children before earlier : List Element} {child element : Element} {lax : Bool}

namespace Xml.Element

def tagged (tag : String) (children : List Element) : List Element :=
  children.filter (·.tag = tag)

/-- An annotation among the children asserts the marking. -/
def marked (children : List Element) (marking : Marking) : Bool :=
  (tagged "annotation" children).any (·.asserts marking)

theorem tagged_concat (tag : String) :
    tagged tag (before ++ [child]) = tagged tag before ++ if child.tag = tag then [child] else [] := by
  by_cases same : child.tag = tag <;> simp [tagged, same]

theorem tagged_concat_of_ne {tag : String} (other : child.tag ≠ tag) :
    tagged tag (before ++ [child]) = tagged tag before := by
  rw [tagged_concat, if_neg other, List.append_nil]

theorem marked_concat (marking : Marking) :
    marked (before ++ [child]) marking =
      (marked before marking || (decide (child.tag = "annotation") && child.asserts marking)) := by
  by_cases tag : child.tag = "annotation" <;> simp [marked, tagged_concat, tag]

theorem marked_concat_of_ne {marking : Marking} (other : child.tag ≠ "annotation") :
    marked (before ++ [child]) marking = marked before marking := by
  simp [marked_concat, other]

/-- An annotation has one name. -/
theorem not_asserts {marking marking' : Marking} (asserts : child.asserts marking = true)
    (different : marking.name ≠ marking'.name) : child.asserts marking' = false := by
  simp only [Element.asserts, Bool.and_eq_true, decide_eq_true_eq] at asserts
  simp [Element.asserts, asserts.1, different]

end Xml.Element

open Xml.Element (tagged marked tagged_concat tagged_concat_of_ne marked_concat marked_concat_of_ne)

namespace Arg

/-- How many of the arguments have no name, among those of a role. -/
def unnamed (roleOf : Element → ArgRole) (role : ArgRole) (elements : List Element) : Nat :=
  elements.countP fun element => element.attributeD "name" = "" ∧ roleOf element = role

/-- The argument that an element writes after other arguments of the same member. -/
def written (roleOf : Element → ArgRole) (earlier : List Element) (element : Element) : Arg where
  name :=
    if element.attributeD "name" = "" then
      (roleOf element).stem ++ toString (unnamed roleOf (roleOf element) earlier)
    else element.attributeD "name"
  signature := element.attributeD "type"
  direction := (roleOf element).direction
  variantHint := element.variantHint?

def allWritten (roleOf : Element → ArgRole) (earlier : List Element) : List Element → List Arg
  | [] => []
  | element :: rest => written roleOf earlier element :: allWritten roleOf (earlier ++ [element]) rest

variable {roleOf : Element → ArgRole}

theorem allWritten_concat :
    allWritten roleOf earlier (before ++ [element]) =
      allWritten roleOf earlier before ++ [written roleOf (earlier ++ before) element] := by
  induction before generalizing earlier with
  | nil => simp [allWritten]
  | cons first rest ih => simp [allWritten, ih]

/-- The numbering has counted the unnamed arguments of every role. -/
def Counted (roleOf : Element → ArgRole) (numbering : Unnamed) (elements : List Element) : Prop :=
  ∀ role, numbering.count role = unnamed roleOf role elements

theorem Counted.initial : Counted roleOf {} [] := by
  intro role
  cases role <;> rfl

theorem count_next (numbering : Unnamed) (role other : ArgRole) :
    (numbering.next role).count other = numbering.count other + if role = other then 1 else 0 := by
  cases role <;> cases other <;> rfl

theorem Counted.named {numbering : Unnamed} (counted : Counted roleOf numbering earlier)
    (named : element.attributeD "name" ≠ "") : Counted roleOf numbering (earlier ++ [element]) := by
  intro role
  rw [counted role, unnamed, unnamed, List.countP_append]
  simp [named]

theorem Counted.next {numbering : Unnamed} (counted : Counted roleOf numbering earlier)
    (absent : element.attributeD "name" = "") :
    Counted roleOf (numbering.next (roleOf element)) (earlier ++ [element]) := by
  intro role
  rw [count_next, counted role, unnamed, unnamed, List.countP_append]
  simp [absent, List.countP_singleton]

theorem nameOf_written {member : String} {numbering next : Unnamed} {name : String}
    (counted : Counted roleOf numbering earlier)
    (found : nameOf lax member (roleOf element) numbering element = .ok (name, next)) :
    name = (written roleOf earlier element).name ∧ Counted roleOf next (earlier ++ [element]) := by
  simp only [nameOf] at found
  split at found
  next present =>
    cases found
    have named : element.attributeD "name" ≠ "" := by simpa using present
    exact ⟨(if_neg named).symm, counted.named named⟩
  next missing =>
    have absent : element.attributeD "name" = "" := by simpa using missing
    split at found
    · cases found
      refine ⟨?_, counted.next absent⟩
      rw [counted, written, if_pos absent]
    · cases found

theorem ofElement_written {member : String} {numbering next : Unnamed} {arg : Arg}
    (counted : Counted roleOf numbering earlier)
    (found : ofElement lax member (roleOf element) numbering element = .ok (arg, next)) :
    arg = written roleOf earlier element ∧ Counted roleOf next (earlier ++ [element]) := by
  obtain ⟨signature, typed, found⟩ := bind_ok found
  obtain ⟨⟨name, numbered⟩, named, found⟩ := bind_ok found
  cases found
  obtain ⟨rfl, -⟩ := Element.required_ok typed
  obtain ⟨rfl, counted⟩ := nameOf_written counted named
  exact ⟨rfl, counted⟩

end Arg

namespace Method

/-- The role of an argument whose direction is valid. -/
def writtenRole (element : Element) : ArgRole :=
  match Direction.ofAttribute? (element.attribute? "direction") with
  | some .output => .output
  | _ => .input

/-- The method of a name that the children describe. -/
def writtenBy (name : String) (children : List Element) : Method where
  name
  args := Arg.allWritten writtenRole [] (tagged "arg" children)
  noReply := marked children .noReply
  secure := marked children .itemSecure

def written (element : Element) : Method :=
  writtenBy (element.attributeD "name") element.children

theorem roleOf_written {member : String} {role : ArgRole} (found : roleOf member element = .ok role) :
    role = writtenRole element := by
  simp only [roleOf] at found
  unfold writtenRole
  split at found
  next same =>
    cases found
    rw [same]
  next same =>
    cases found
    rw [same]
  next => cases found

/-- What has been read of a method once the children before a place have been taken. -/
structure Reads (name : String) (before : List Element) (state : Method × Unnamed) : Prop where
  method : state.1 = writtenBy name before
  counted : Arg.Counted writtenRole state.2 (tagged "arg" before)

theorem takeChild_reads {name : String} {state next : Method × Unnamed} (reads : Reads name before state)
    (taken : takeChild lax state child = .ok next) : Reads name (before ++ [child]) next := by
  obtain ⟨method, numbering⟩ := state
  obtain ⟨same, counted⟩ := reads
  cases same
  simp only [takeChild] at taken
  split at taken
  next tag =>
    obtain ⟨role, found, taken⟩ := bind_ok taken
    cases roleOf_written found
    obtain ⟨⟨arg, numbered⟩, found, taken⟩ := bind_ok taken
    obtain ⟨rfl, counted⟩ := Arg.ofElement_written counted found
    simp only at taken
    split at taken
    next => cases taken
    next =>
      cases taken
      have args : tagged "arg" (before ++ [child]) = tagged "arg" before ++ [child] := by
        rw [tagged_concat, if_pos tag]
      have other : child.tag ≠ "annotation" := by simp [tag]
      refine ⟨?_, args ▸ counted⟩
      simp only [writtenBy, args, Arg.allWritten_concat, marked_concat_of_ne other, List.nil_append]
  next tag =>
    have args : tagged "arg" (before ++ [child]) = tagged "arg" before := tagged_concat_of_ne (by simp [tag])
    split at taken
    next asserted =>
      cases taken
      have single : child.asserts .itemSecure = false := Element.not_asserts asserted (by decide)
      refine ⟨?_, args ▸ counted⟩
      simp [writtenBy, args, marked_concat, tag, asserted, single]
    next missing =>
      split at taken
      next asserted =>
        cases taken
        refine ⟨?_, args ▸ counted⟩
        simp [writtenBy, args, marked_concat, tag, asserted, missing]
      next missing' =>
        cases taken
        refine ⟨?_, args ▸ counted⟩
        simp [writtenBy, args, marked_concat, missing, missing']
  next other other' =>
    cases taken
    have args : tagged "arg" (before ++ [child]) = tagged "arg" before := tagged_concat_of_ne other
    refine ⟨?_, args ▸ counted⟩
    simp only [writtenBy, args, marked_concat_of_ne other']

theorem ofElement_written {method : Method} (found : ofElement lax element = .ok method) :
    method = written element := by
  obtain ⟨name, named, found⟩ := bind_ok found
  obtain ⟨⟨last, numbering⟩, run, found⟩ := bind_ok found
  cases found
  obtain ⟨rfl, -⟩ := Element.required_ok named
  have reads := foldlM_ok (Reads (element.attributeD "name")) run ⟨rfl, .initial⟩
    fun _ _ _ _ reads taken => takeChild_reads reads taken
  exact reads.method

end Method

namespace Signal

def writtenBy (name : String) (children : List Element) : Signal where
  name
  args := Arg.allWritten (fun _ => .signal) [] (tagged "arg" children)
  secure := marked children .itemSecure

def written (element : Element) : Signal :=
  writtenBy (element.attributeD "name") element.children

structure Reads (name : String) (before : List Element) (state : Signal × Unnamed) : Prop where
  signal : state.1 = writtenBy name before
  counted : Arg.Counted (fun _ => .signal) state.2 (tagged "arg" before)

theorem takeChild_reads {name : String} {state : Signal × Unnamed} (reads : Reads name before state) :
    (takeChild lax state child).Finds (Reads name (before ++ [child])) := by
  obtain ⟨signal, numbering⟩ := state
  obtain ⟨same, counted⟩ := reads
  cases same
  simp only [takeChild]
  split
  next tag =>
    apply Reading.Finds.bind (Reading.Finds.lift fun found read => read)
    rintro ⟨arg, numbered⟩ found
    obtain ⟨rfl, counted⟩ := Arg.ofElement_written counted found
    have args : tagged "arg" (before ++ [child]) = tagged "arg" before ++ [child] := by
      rw [tagged_concat, if_pos tag]
    have other : child.tag ≠ "annotation" := by simp [tag]
    have added : Reads name (before ++ [child])
        ({ writtenBy name before with
            args := (writtenBy name before).args ++ [Arg.written (fun _ => .signal) (tagged "arg" before) child] },
          numbered) := by
      refine ⟨?_, args ▸ counted⟩
      simp only [writtenBy, args, Arg.allWritten_concat, marked_concat_of_ne other, List.nil_append]
    simp only
    split
    · apply Reading.Finds.bind (.warn _)
      intro _ _
      split
      next => exact .refuse _ _
      next => exact .pure added
    · split
      next => exact .refuse _ _
      next => exact .pure added
  next tag =>
    have args : tagged "arg" (before ++ [child]) = tagged "arg" before := tagged_concat_of_ne (by simp [tag])
    split
    next asserted =>
      refine .pure ⟨?_, args ▸ counted⟩
      simp [writtenBy, args, marked_concat, tag, asserted]
    next missing =>
      refine .pure ⟨?_, args ▸ counted⟩
      simp [writtenBy, args, marked_concat, missing]
  next other other' =>
    have args : tagged "arg" (before ++ [child]) = tagged "arg" before := tagged_concat_of_ne other
    refine .pure ⟨?_, args ▸ counted⟩
    simp only [writtenBy, args, marked_concat_of_ne other']

theorem ofElement_written (lax : Bool) (element : Element) : (ofElement lax element).Finds (· = written element) := by
  apply Reading.Finds.bind (Reading.Finds.lift fun name read => Element.required_ok read)
  rintro name ⟨rfl, -⟩
  apply Reading.Finds.bind (Reading.Finds.foldlM_done (Reads (element.attributeD "name")) ⟨rfl, .initial⟩
    fun _ _ _ reads => takeChild_reads reads)
  rintro ⟨signal, numbering⟩ reads
  exact .pure reads.signal

end Signal

namespace Property

def written (element : Element) : Property where
  name := element.attributeD "name"
  signature := element.attributeD "type"
  access := (Access.ofName? (element.attributeD "access")).getD .read

theorem ofElement_written {property : Property} (found : ofElement element = .ok property) :
    property = written element := by
  obtain ⟨name, named, found⟩ := bind_ok found
  obtain ⟨signature, typed, found⟩ := bind_ok found
  obtain ⟨access, opened, found⟩ := bind_ok found
  obtain ⟨rfl, -⟩ := Element.required_ok named
  obtain ⟨rfl, -⟩ := Element.required_ok typed
  obtain ⟨rfl, -⟩ := Element.required_ok opened
  split at found
  next access same =>
    cases found
    rw [written, same, Option.getD_some]
  next => cases found

end Property

namespace Interface

def writtenBy (name : String) (children : List Element) : Interface where
  name
  methods := (tagged "method" children).map Method.written
  signals := (tagged "signal" children).map Signal.written
  properties := (tagged "property" children).map Property.written
  secure := marked children .itemSecure || marked children .secure

def written (element : Element) : Interface :=
  writtenBy (element.attributeD "name") element.children

theorem takeChild_written (lax : Bool) (name : String) (before : List Element) (child : Element) :
    (takeChild lax (writtenBy name before) child).Finds (· = writtenBy name (before ++ [child])) := by
  unfold takeChild
  split
  next tag =>
    apply Reading.Finds.bind (Reading.Finds.lift fun method found => Method.ofElement_written found)
    rintro _ rfl
    apply Reading.Finds.pure
    simp [writtenBy, tagged_concat, marked_concat, tag]
  next tag =>
    apply Reading.Finds.bind (Signal.ofElement_written lax child)
    rintro _ rfl
    apply Reading.Finds.pure
    simp [writtenBy, tagged_concat, marked_concat, tag]
  next tag =>
    apply Reading.Finds.bind (Reading.Finds.lift fun property found => Property.ofElement_written found)
    rintro _ rfl
    apply Reading.Finds.pure
    simp [writtenBy, tagged_concat, marked_concat, tag]
  next tag =>
    apply Reading.Finds.pure
    simp [writtenBy, tagged_concat, marked_concat, tag, Bool.or_assoc, Bool.or_left_comm]
  next method signal property annotation =>
    apply Reading.Finds.pure
    simp only [writtenBy, tagged_concat_of_ne method, tagged_concat_of_ne signal, tagged_concat_of_ne property,
      marked_concat_of_ne annotation]

theorem ofElement_written (lax : Bool) (element : Element) : (ofElement lax element).Finds (· = written element) := by
  apply Reading.Finds.bind (Reading.Finds.lift fun name read => Element.required_ok read)
  rintro name ⟨rfl, -⟩
  apply Reading.Finds.foldlM_done (fun before interface => interface = writtenBy (element.attributeD "name") before) rfl
  rintro before child _ rfl
  exact takeChild_written lax _ before child

end Interface
end BusStub
