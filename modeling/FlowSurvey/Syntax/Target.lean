import FlowSurvey.Syntax.Node

/-!
# Targets

What may be assigned to is read as an expression first.  A name, an attribute and
a subscript are targets as they stand; a sequence is one if its members are.
-/

namespace FlowSurvey.Syntax

/-- Names a single place. -/
def Kind.isPlace : Kind → Bool
  | .identifier | .attribute | .subscript => Bool.true
  | _ => Bool.false

/-- Stands between tokens without being one. -/
def Kind.isTrivia : Kind → Bool
  | .comment | .lineContinuation => Bool.true
  | _ => Bool.false

/-- The kind of the target that an expression of this kind can become. -/
def Kind.target? : Kind → Option Kind
  | .identifier => some .identifier
  | .attribute => some .attribute
  | .subscript => some .subscript
  | .listSplat => some .listSplatPattern
  | .tuple | .parenthesized => some .tuplePattern
  | .list => some .listPattern
  | _ => Option.none

mutual

/-- The target that an expression stands for, if it is one. -/
def Node.target? : Node → Option Node
  | ⟨kind, role, start, text, children⟩ =>
      match kind.target? with
      | Option.none => Option.none
      | some target =>
          if kind.isPlace then some ⟨target, role, start, text, children⟩
          else if kind = .listSplat then
            if children.all fun c => c.kind = .token || c.kind.isTrivia || c.kind.isPlace then
              some ⟨target, role, start, text, children⟩
            else Option.none
          else (targets? children).map fun members => ⟨target, role, start, text, members⟩

/-- The children of a sequence, of which all that are no tokens are targets. -/
def Node.targets? : List Node → Option (List Node)
  | [] => some []
  | n :: rest =>
      if n.kind = .token || n.kind.isTrivia then (targets? rest).map (n :: ·)
      else
        match n.target?, targets? rest with
        | some t, some ts => some (t :: ts)
        | _, _ => Option.none

end

end FlowSurvey.Syntax
