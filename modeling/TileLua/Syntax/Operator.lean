/-! The operators, statement verbs and expression functions of game scripts, with the words that
name them in an export and the symbols that stand for them in Lua.
-/

namespace TileLua

/-- A comparison of a condition. -/
inductive Comparison
  | less
  | lessEqual
  | greater
  | greaterEqual
  | equal
  | notEqual
  deriving DecidableEq, Inhabited, Repr

namespace Comparison

/-- Every comparison. -/
def all : List Comparison :=
  [less, lessEqual, greater, greaterEqual, equal, notEqual]

/-- The tag of a comparison in an export. -/
def tag : Comparison → String
  | less => "lt"
  | lessEqual => "lte"
  | greater => "gt"
  | greaterEqual => "gte"
  | equal => "eq"
  | notEqual => "neq"

/-- The comparison of a tag. -/
def ofTag? (tag : String) : Option Comparison :=
  all.find? fun comparison => comparison.tag == tag

/-- The Lua operator. -/
def symbol : Comparison → String
  | less => "<"
  | lessEqual => "<="
  | greater => ">"
  | greaterEqual => ">="
  | equal => "=="
  | notEqual => "~="

end Comparison

/-- How an assignment changes its target. -/
inductive Assignment
  | set
  | add
  | sub
  | div
  | mul
  deriving DecidableEq, Inhabited, Repr

namespace Assignment

/-- Every kind of assignment. -/
def all : List Assignment :=
  [set, add, sub, div, mul]

/-- The tag of an assignment in an export. -/
def tag : Assignment → String
  | set => "set"
  | add => "add"
  | sub => "sub"
  | div => "div"
  | mul => "mul"

/-- The assignment of a tag. -/
def ofTag? (tag : String) : Option Assignment :=
  all.find? fun assignment => assignment.tag == tag

/-- The operator between target and value. -/
def symbol : Assignment → String
  | set => "="
  | add => "+="
  | sub => "-="
  | div => "/="
  | mul => "*="

end Assignment

/-- A built-in statement that is compiled to a call of the engine. -/
inductive Verb
  | goto
  | shake
  | fin
  | hide
  | draw
  | bpm
  | sound
  | invert
  | frame
  | fill
  | swap
  | label
  | restore
  | store
  | toss
  | wait
  | say
  | ask
  | menu
  | option
  | act
  | loop
  | once
  | stop
  | ignore
  | listen
  | log
  | dump
  | window
  | crop
  | play
  deriving DecidableEq, Inhabited, Repr

namespace Verb

/-- Every statement verb. -/
def all : List Verb :=
  [goto, shake, fin, hide, draw, bpm, sound, invert, frame, fill, swap, label, restore, store, toss,
    wait, say, ask, menu, option, act, loop, once, stop, ignore, listen, log, dump, window, crop,
    play]

/-- The word of a verb in exports and in the engine. -/
def word : Verb → String
  | goto => "goto"
  | shake => "shake"
  | fin => "fin"
  | hide => "hide"
  | draw => "draw"
  | bpm => "bpm"
  | sound => "sound"
  | invert => "invert"
  | frame => "frame"
  | fill => "fill"
  | swap => "swap"
  | label => "label"
  | restore => "restore"
  | store => "store"
  | toss => "toss"
  | wait => "wait"
  | say => "say"
  | ask => "ask"
  | menu => "menu"
  | option => "option"
  | act => "act"
  | loop => "loop"
  | once => "once"
  | stop => "stop"
  | ignore => "ignore"
  | listen => "listen"
  | log => "log"
  | dump => "dump"
  | window => "window"
  | crop => "crop"
  | play => "play"

/-- The verb of a word. -/
def ofWord? (word : String) : Option Verb :=
  all.find? fun verb => verb.word == word

end Verb

/-- A built-in function of expressions. -/
inductive Builtin
  | type
  | id
  | solid
  | frame
  | floor
  | round
  | ceil
  | invert
  | name
  | random
  | sine
  | cosine
  | tangent
  | degrees
  | radians
  | lpad
  | rpad
  deriving DecidableEq, Inhabited, Repr

namespace Builtin

/-- Every function. -/
def all : List Builtin :=
  [type, id, solid, frame, floor, round, ceil, invert, name, random, sine, cosine, tangent, degrees,
    radians, lpad, rpad]

/-- The word of a function in exports and in the engine. -/
def word : Builtin → String
  | type => "type"
  | id => "id"
  | solid => "solid"
  | frame => "frame"
  | floor => "floor"
  | round => "round"
  | ceil => "ceil"
  | invert => "invert"
  | name => "name"
  | random => "random"
  | sine => "sine"
  | cosine => "cosine"
  | tangent => "tangent"
  | degrees => "degrees"
  | radians => "radians"
  | lpad => "lpad"
  | rpad => "rpad"

/-- The function of a word. -/
def ofWord? (word : String) : Option Builtin :=
  all.find? fun builtin => builtin.word == word

end Builtin

end TileLua
