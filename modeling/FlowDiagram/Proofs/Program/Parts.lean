import FlowDiagram.Program.Print

/-!
# Identifiers and spans of a program

All identifiers that a program holds, and programs with their spans left out.  The text of a program
does not depend on spans.
-/

namespace FlowDiagram

/-! ## Identifiers -/

def Generics.idents (generics : Generics) : List Ident :=
  generics.universal ++ generics.existential

def Ports.idents (ports : Ports) : List Ident :=
  ports.inputs ++ ports.outputs

def BoxRef.idents : BoxRef → List Ident
  | .add symbol | .remove symbol | .spawn symbol => [symbol]
  | .indexed tag _ _ => [tag]
  | .join _ | .split _ => []
  | .definition name arguments => name :: arguments.elim [] Generics.idents

def Use.idents (use : Use) : List Ident :=
  use.box.idents ++ (use.ports.idents ++ [use.name])

def PortRef.idents (ref : PortRef) : List Ident :=
  ref.owner.toList ++ [ref.port]

def Link.idents (link : Link) : List Ident :=
  link.source.idents ++ link.target.idents

def Definition.idents (definition : Definition) : List Ident :=
  definition.name :: (definition.generics.idents ++ (definition.ports.idents ++
    (definition.uses.flatMap Use.idents ++ definition.links.flatMap Link.idents)))

def Program.idents (program : Program) : List Ident :=
  program.definitions.flatMap Definition.idents

/-- All of the identifiers can be written as such. -/
def AllNamed (idents : List Ident) : Prop :=
  ∀ ident ∈ idents, IsIdentName ident.name

@[simp]
theorem allNamed_nil : AllNamed [] := by
  simp [AllNamed]

@[simp]
theorem allNamed_cons {ident : Ident} {rest : List Ident} :
    AllNamed (ident :: rest) ↔ IsIdentName ident.name ∧ AllNamed rest :=
  List.forall_mem_cons

@[simp]
theorem allNamed_append {first second : List Ident} :
    AllNamed (first ++ second) ↔ AllNamed first ∧ AllNamed second :=
  List.forall_mem_append

theorem AllNamed.of_mem {Part : Type} {idents : Part → List Ident} {parts : List Part} {part : Part}
    (named : AllNamed (parts.flatMap idents)) (member : part ∈ parts) : AllNamed (idents part) :=
  fun ident held => named ident (List.mem_flatMap.mpr ⟨part, member, held⟩)

/-! ## Spans left out -/

def Span.nowhere : Span := ⟨0, 0⟩

def Ident.withoutSpan (ident : Ident) : Ident := ⟨ident.name, .nowhere⟩

def Generics.withoutSpans (generics : Generics) : Generics :=
  ⟨generics.universal.map Ident.withoutSpan, generics.existential.map Ident.withoutSpan, .nowhere⟩

def Ports.withoutSpans (ports : Ports) : Ports :=
  ⟨ports.inputs.map Ident.withoutSpan, ports.outputs.map Ident.withoutSpan, .nowhere⟩

def BoxRef.withoutSpans : BoxRef → BoxRef
  | .add symbol => .add symbol.withoutSpan
  | .remove symbol => .remove symbol.withoutSpan
  | .spawn symbol => .spawn symbol.withoutSpan
  | .indexed tag count _ => .indexed tag.withoutSpan count .nowhere
  | .join _ => .join .nowhere
  | .split _ => .split .nowhere
  | .definition name arguments =>
    .definition name.withoutSpan (arguments.map Generics.withoutSpans)

def Use.withoutSpans (use : Use) : Use :=
  ⟨use.box.withoutSpans, use.ports.withoutSpans, use.name.withoutSpan, .nowhere⟩

def PortRef.withoutSpans (ref : PortRef) : PortRef :=
  ⟨ref.owner.map Ident.withoutSpan, ref.port.withoutSpan, .nowhere⟩

def Link.withoutSpans (link : Link) : Link :=
  ⟨link.source.withoutSpans, link.target.withoutSpans, .nowhere⟩

def Definition.withoutSpans (definition : Definition) : Definition :=
  ⟨definition.name.withoutSpan, definition.generics.withoutSpans, definition.ports.withoutSpans,
    definition.uses.map Use.withoutSpans, definition.links.map Link.withoutSpans, .nowhere⟩

def Program.withoutSpans (program : Program) : Program :=
  ⟨program.definitions.map Definition.withoutSpans, .nowhere⟩

/-! ## Texts without spans -/

theorem identsText_withoutSpan (idents : List Ident) :
    identsText (idents.map Ident.withoutSpan) = identsText idents := by
  simp [identsText, Ident.withoutSpan, Function.comp_def]

theorem Generics.text_withoutSpans (generics : Generics) :
    generics.withoutSpans.text = generics.text := by
  simp [text, withoutSpans, identsText_withoutSpan]

theorem Ports.text_withoutSpans (ports : Ports) : ports.withoutSpans.text = ports.text := by
  simp [text, withoutSpans, identsText_withoutSpan]

theorem BoxRef.text_withoutSpans (box : BoxRef) : box.withoutSpans.text = box.text := by
  cases box with
  | definition name arguments =>
      cases arguments with
      | none => rfl
      | some arguments =>
          simp [text, withoutSpans, Generics.text_withoutSpans, Ident.withoutSpan]
  | _ => rfl

theorem Use.text_withoutSpans (use : Use) : use.withoutSpans.text = use.text := by
  simp [text, withoutSpans, BoxRef.text_withoutSpans, Ports.text_withoutSpans, Ident.withoutSpan]

theorem PortRef.text_withoutSpans (ref : PortRef) : ref.withoutSpans.text = ref.text := by
  obtain ⟨owner, port, span⟩ := ref
  cases owner <;> rfl

theorem Link.text_withoutSpans (link : Link) : link.withoutSpans.text = link.text := by
  simp [text, withoutSpans, PortRef.text_withoutSpans]

theorem Generics.isEmpty_withoutSpans (generics : Generics) :
    generics.withoutSpans.isEmpty = generics.isEmpty := by
  simp [isEmpty, withoutSpans]

theorem Definition.headerText_withoutSpans (definition : Definition) :
    definition.withoutSpans.headerText = definition.headerText := by
  simp [headerText, withoutSpans, Generics.isEmpty_withoutSpans, Generics.text_withoutSpans,
    Ports.text_withoutSpans, Ident.withoutSpan]

theorem Definition.text_withoutSpans (definition : Definition) :
    definition.withoutSpans.text = definition.text := by
  unfold text
  rw [headerText_withoutSpans]
  simp [withoutSpans, Function.comp_def, Use.text_withoutSpans, Link.text_withoutSpans]

/-- The text of a program does not depend on spans. -/
theorem Program.text_withoutSpans (program : Program) :
    program.withoutSpans.text = program.text := by
  simp [text, withoutSpans, Function.comp_def, Definition.text_withoutSpans]

end FlowDiagram
