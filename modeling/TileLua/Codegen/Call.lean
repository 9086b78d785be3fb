/-! Calls of built-in operations.
An operation can declare named argument slots, which come first and in declared order; a slot that
no operand fills is `nil`. The call is then written by the first of three rules: a template of the
operation, a local helper function, or a member of the engine.
-/

namespace TileLua.Codegen

/-- Where an operation is called. -/
inductive CallRole
  | statement
  | expression
  deriving DecidableEq, Inhabited, Repr

/-- The member of the engine for an operation. -/
def CallRole.member (role : CallRole) (operation : String) : String :=
  match role with
  | .statement => "__fn_" ++ operation
  | .expression => "__ex_" ++ operation

/-- A named argument slot. -/
inductive Slot
  | actor
  | event
  | eventName
  | body
  | x
  | y
  | width
  | height
  | length
  | lines
  deriving DecidableEq, Inhabited, Repr

/-- The declared slots of operations, in order. -/
def slotTable : List (String × List Slot) :=
  [("frame", [.actor]),
    ("goto", [.x, .y]),
    ("tell", [.event, .eventName, .body]),
    ("swap", [.actor]),
    ("label", [.x, .y, .length, .lines]),
    ("draw", [.x, .y]),
    ("solid", [.x, .y]),
    ("wait", [.actor, .event, .eventName, .body]),
    ("say", [.x, .y, .width, .height, .actor, .event, .eventName, .body]),
    ("ask", [.x, .y, .width, .height, .actor, .event, .eventName, .body]),
    ("menu", [.x, .y, .width, .height, .actor, .event, .eventName, .body]),
    ("option", [.actor, .event, .eventName, .body]),
    ("window", [.x, .y, .width, .height]),
    ("fill", [.x, .y, .width, .height]),
    ("crop", [.x, .y, .width, .height]),
    ("play", [.actor, .event, .eventName, .body]),
    ("once", [.actor, .event, .eventName, .body]),
    ("type", [.x, .y]),
    ("id", [.x, .y])]

/-- The declared slots of an operation. -/
def slotsOf (operation : String) : List Slot :=
  (slotTable.lookup operation).getD []

/-- A piece of a template: text, or the argument at an index. -/
inductive Piece
  | text (value : String)
  | argument (index : Nat)
  deriving DecidableEq, Inhabited, Repr

/-- The operations that are written in place, by their engine member. -/
def templates : List (String × List Piece) :=
  [("__fn_frame", [.argument 0, .text ".frame = ", .argument 1]),
    ("__fn_inc", [.argument 0, .text " += 1"]),
    ("__fn_dec", [.argument 0, .text " -= 1"]),
    ("__fn_log", [.text "__print(", .argument 0, .text ")"]),
    ("__fn_fill",
      [.text "__setcolour(__fillcolours[", .argument 4, .text "]); __fillrect(", .argument 0,
        .text " * __pix8scale, ", .argument 1, .text " * __pix8scale, ", .argument 2,
        .text " * __pix8scale, ", .argument 3, .text " * __pix8scale)"]),
    ("__ex_frame", [.text "(", .argument 0, .text ".frame or 0)"]),
    ("__ex_invert", [.text "(__pulp.invert and 1 or 0)"]),
    ("__ex_degrees", [.text "(", .argument 0, .text " * 360 / __tau)"]),
    ("__ex_radians", [.text "(", .argument 0, .text " * __tau / 360)"])]

/-- The template of an operation in a role. -/
def template? (role : CallRole) (operation : String) : Option (List Piece) :=
  templates.lookup (role.member operation)

/-- Operations that a local helper function stands for. -/
def helpers : List (String × String) :=
  [("floor", "__floor"), ("ceil", "__ceil"), ("round", "__round"), ("sine", "__sin"),
    ("cosine", "__cos"), ("tangent", "__tan"), ("random", "__random")]

/-- An operand of a call as Lua text. -/
inductive OperandText
  | point (x y : String)
  | area (x y width : String) (height : Option String)
  | body (text : String)
  | scalar (text : String)
  deriving DecidableEq, Inhabited, Repr

namespace OperandText

/-- The horizontal position that an operand gives. -/
def x? : OperandText → Option String
  | point x _ => some x
  | area x _ _ _ => some x
  | _ => none

/-- The vertical position that an operand gives. -/
def y? : OperandText → Option String
  | point _ y => some y
  | area _ y _ _ => some y
  | _ => none

/-- The width that an operand gives. -/
def width? : OperandText → Option String
  | area _ _ width _ => some width
  | _ => none

/-- The height that an operand gives. -/
def height? : OperandText → Option String
  | area _ _ _ height => height
  | _ => none

/-- The subroutine that an operand is. -/
def body? : OperandText → Option String
  | body text => some text
  | _ => none

/-- The plain value that an operand is. -/
def scalar? : OperandText → Option String
  | scalar text => some text
  | _ => none

end OperandText

/-- What fills a slot: the surroundings, or the last operand that gives it. -/
def slotText? (operands : List OperandText) : Slot → Option String
  | .actor => some "__actor"
  | .event => some "event"
  | .eventName => some "__evname"
  | .body => (operands.filterMap OperandText.body?).getLast?
  | .x => (operands.filterMap OperandText.x?).getLast?
  | .y => (operands.filterMap OperandText.y?).getLast?
  | .width => (operands.filterMap OperandText.width?).getLast?
  | .height => (operands.filterMap OperandText.height?).getLast?
  | .length => none
  | .lines => none

/-- The arguments of a call: the declared slots, then the scalar operands. -/
def arguments (operation : String) (operands : List OperandText) : List String :=
  (slotsOf operation).map (fun slot => (slotText? operands slot).getD "nil")
    ++ operands.filterMap OperandText.scalar?

/-- A template with its arguments put in. -/
def expand (pieces : List Piece) (arguments : List String) : String :=
  String.join (pieces.map fun
    | .text value => value
    | .argument index => arguments[index]?.getD "nil")

/-- A call with its arguments: by a template, a helper or a member of the engine. -/
def written (role : CallRole) (operation : String) (arguments : List String) : String :=
  match template? role operation with
  | some pieces => expand pieces arguments
  | none =>
      let callee := (helpers.lookup operation).getD ("__pulp." ++ role.member operation)
      callee ++ "(" ++ ", ".intercalate arguments ++ ")"

/-- The text of a call. -/
def callText (role : CallRole) (operation : String) (operands : List OperandText) : String :=
  written role operation (arguments operation operands)

end TileLua.Codegen
