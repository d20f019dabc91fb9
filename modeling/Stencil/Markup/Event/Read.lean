import Stencil.Markup.Event.Declaration
import Stencil.Markup.Node.Basic

/-!
# Reading markup

A markup text is read as the sequence of its events. Between the events stands text, cut at the
left angle brackets; its references are expanded. A construct that the text ends in is text, up to
and with the next right angle bracket. In the body of a script or a style sheet all is text up to
the closing tag, and nothing is left of a body that is never closed.

Every step takes at least one character, so the length of the text bounds the number of steps.
-/

namespace Stencil.Markup

/-- A text event, its references expanded. -/
def textEvent (s : List Char) : Except Fault Event :=
  match expandReferences s with
  | .ok t => .ok (.text (String.ofList t))
  | .error fault => .error (.reference fault)

/-- What is read in one step: events, the tag of the raw body that starts, and the rest. -/
structure Step where
  events : List Event
  raw : Option String
  rest : List Char

/-- An opening tag, given the text after its `<`. Absent if it is incomplete. -/
def readOpening (s : List Char) : Except Fault (Option Step) :=
  let (name, attrs, tagEnd) := readTag s
  let tag := String.ofList (Text.lowerCase name)
  let finish (f : List (String × String) → Step) : Except Fault (Option Step) :=
    match attrs.mapM finishAttribute with
    | .ok attrs => .ok (some (f attrs))
    | .error fault => .error (.reference fault)
  match tagEnd with
  | .opening rest => finish fun attrs =>
    ⟨[.startTag tag attrs], if tag ∈ Node.rawTags then some tag else none, rest⟩
  | .closed rest => finish fun attrs => ⟨[.selfClosing tag attrs], none, rest⟩
  | .incomplete => .ok none
  | .text rest => finish fun _ =>
    ⟨[.text (String.ofList ('<' :: s.take (s.length - rest.length)))], none, rest⟩

/-- The construct that starts with a left angle bracket, given the text after it. Absent if it is
    incomplete. -/
def readConstruct (s : List Char) : Except Fault (Option Step) :=
  let single (found : Option (Event × List Char)) : Option Step :=
    found.map fun (event, rest) => ⟨[event], none, rest⟩
  match s with
  | [] => .ok (some ⟨[.text "<"], none, []⟩)
  | '/' :: rest => .ok ((readEndTag? rest).map fun (event, rest) => ⟨event.toList, none, rest⟩)
  | '!' :: rest => (readDeclaration? rest).map single
  | '?' :: rest => .ok (single (readInstruction? rest))
  | c :: rest => if isLetter c then readOpening (c :: rest) else .ok (some ⟨[.text "<"], none, c :: rest⟩)

/-- The text that an incomplete construct is, given what follows its `<`, and the rest. -/
def incompleteText (s : List Char) : List Char × List Char :=
  match Text.cutAt '>' s with
  | some (inside, rest) => ('<' :: inside ++ ['>'], rest)
  | none =>
    -- no bracket closes it: it reaches up to the next one that opens, if there is one
    let inside := s.takeWhile (· != '<')
    match s.drop inside.length with
    | [] => (['<'], s)
    | rest => ('<' :: inside, rest)

/-- One step outside of raw bodies. -/
def readStep (s : List Char) : Except Fault Step := do
  let before := s.takeWhile (· != '<')
  match s.drop before.length with
  | [] => return ⟨[← textEvent before], none, []⟩
  -- the character that is dropped is the bracket
  | _ :: inside =>
    let texts ← if before = [] then pure [] else do pure [← textEvent before]
    match ← readConstruct inside with
    | some step => return { step with events := texts ++ step.events }
    | none =>
      let (text, rest) := incompleteText inside
      return ⟨texts ++ [← textEvent text], none, rest⟩

/-- The letter that a character of a closing tag of a raw body stands for. -/
def foldLetter (c : Char) : Char :=
  if c.toNat = 0x17F then 's' else if c.toNat = 0x131 ∨ c.toNat = 0x130 then 'i' else c.toLower

/-- The rest after a closing tag of a raw body. -/
def afterRawTag? (tag : List Char) : List Char → Option (List Char)
  | '<' :: '/' :: s =>
    let s := s.dropWhile Text.isSpace
    if (s.take tag.length).map foldLetter = tag then
      match (s.drop tag.length).dropWhile Text.isSpace with
      | '>' :: rest => some rest
      | _ => none
    else none
  | _ => none

/-- One step in a raw body: the text up to the closing tag, and this tag; absent if the body is
    never closed. A closing tag with letters that are none of ASCII does not close the body. -/
def readRawStep? (tag : String) (s : List Char) : Option Step :=
  (Text.cutWhere (afterRawTag? tag.toList) s).map fun (before, rest) =>
    let texts := if before = [] then [] else [Event.text (String.ofList before)]
    let closing := (s.drop before.length).take (s.length - before.length - rest.length)
    match exactEndTag? (closing.drop 2) with
    | some _ => ⟨texts ++ [.endTag tag], none, rest⟩
    -- the body goes on
    | none => ⟨texts ++ [.text (String.ofList closing)], some tag, rest⟩

/-- The events of a text that starts in the raw body of a tag or outside of one. At most `fuel`
    steps are taken. -/
def readFrom : (fuel : Nat) → (raw : Option String) → List Char → Except Fault (List Event)
  | 0, _, _ => .ok []
  | _ + 1, _, [] => .ok []
  | fuel + 1, none, c :: s => do
    let step ← readStep (c :: s)
    return step.events ++ (← readFrom fuel step.raw step.rest)
  | fuel + 1, some tag, c :: s =>
    match readRawStep? tag (c :: s) with
    | none => .ok []
    | some step => do return step.events ++ (← readFrom fuel step.raw step.rest)

/-- The events of a markup text. -/
def read (s : List Char) : Except Fault (List Event) :=
  readFrom s.length none s

theorem takeWhile_of_forall {p : Char → Bool} {s : List Char} (h : ∀ c ∈ s, p c = true) :
    s.takeWhile p = s := by
  induction s with
  | nil => rfl
  | cons c s ih =>
    rw [List.takeWhile_cons, if_pos (h c List.mem_cons_self),
      ih fun d hd => h d (List.mem_cons_of_mem c hd)]

end Stencil.Markup
