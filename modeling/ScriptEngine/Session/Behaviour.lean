import ScriptEngine.Session.Form
import ScriptEngine.Value.Conversion

/-!
# What the functions of a session's classes do

Some behaviours have names: they make values, fail, share arrays and objects with the script, and
enter the engine again.  Any other one is given as a closure over values and kept scripts.
-/

namespace ScriptEngine

namespace Session.Behaviour

/-- The behaviour of a given name. -/
def ofName? : String → Option Behaviour
  | "undefined" => some undefined
  | "sum" => some sum
  | "list" => some list
  | "first" => some first
  | "fail" => some fail
  | "custom" => some custom
  | "located_fail" => some locatedFail
  | "count" => some count
  | "push" => some push
  | "setprop" => some setProperty
  | "delprop" => some removeProperty
  | "call_fn" => some callFunction
  | "invoke_cb" => some invokeCallback
  | "frame" => some frame
  | _ => none

/-- An argument; a missing one is `undefined`. -/
def argument (args : List Value) (i : Nat) : Value :=
  args[i]?.getD .undefined

/-- The items of an argument that is an array. -/
def argumentItems (args : List Value) (i : Nat) (m : Memory) : List Value :=
  match argument args i with
  | .array a => (m.items a).toList
  | _ => []

/-- Fail with a message that shows the arguments. -/
def failWith (cause : String → Cause) (label : String) (args : List Value) : Host.Program :=
  .displayAll args fun texts =>
    .fail (.of (cause (label ++ "(" ++ ",".intercalate texts ++ ")")))

/-- What a call frame shows: whether the function runs, and the call that it runs for. -/
def frameText (frame : CallFrame) : String :=
  s!"{frame.isActive} {frame.activeCallText}"

/-- The values that a function of this behaviour captures. -/
def values : Behaviour → List ValueForm
  | closure values _ _ => values
  | _ => []

/-- The scripts that a function of this behaviour captures, by their handles. -/
def scripts : Behaviour → List String
  | closure _ scripts _ => scripts
  | _ => []

/-- What a function of this behaviour does with what it has captured. -/
def body (b : Behaviour) (captures : Captures) : Host.Function :=
  fun args =>
    match b with
    | undefined => .succeed .undefined
    | sum => .succeed (.number (args.foldl (fun total v => total + v.toNumber) 0))
    | list => .succeedWith (·.newArray args.toArray)
    | first => .succeed (argument args 0)
    | fail => failWith .native "failed" args
    | custom => failWith .custom "custom" args
    | locatedFail =>
      .fail (((EvalError.of (.native "located")).withLocation ⟨77, 7⟩).withContext "host")
    | count => .write (·.count captures.counter) <| .read fun m =>
        .succeed (.number (Number.ofInt (m.counter captures.counter)))
    | push =>
      match args with
      | .array a :: rest =>
        .write (·.modifyItems a (· ++ rest.toArray)) <| .read fun m =>
          .succeed (.number (Number.ofInt (m.items a).size))
      | _ => .succeed .undefined
    | setProperty =>
      match args with
      | [.object o, key, v] =>
        .display key fun text =>
          .write (fun m =>
            let (n, m) := m.intern captures.interner text
            m.modifyProperties o (·.insert n v)) (.succeed v)
      | _ => .succeed .undefined
    | removeProperty =>
      match args with
      | [.object o, key] =>
        .display key fun text => .read fun m =>
          let n := (m.intern captures.interner text).1
          .write (fun m => (m.intern captures.interner text).2.modifyProperties o (·.erase n))
            (.succeed ((m.properties o).read n))
      | _ => .succeed .undefined
    | callFunction =>
      .display (argument args 0) fun name => .read fun m =>
        .callFunction name (argumentItems args 1 m) .finish
    | invokeCallback =>
      .display (argument args 0) fun name => .read fun m =>
        .invokeCallback name (argumentItems args 1 m) .finish
    | frame =>
      .display (argument args 0) fun name =>
        .inspectFrame name fun frame =>
          match frame with
          | some frame => .succeed (.string (frameText frame))
          | none => .succeed .undefined
    | closure _ _ run => run captures args

end Session.Behaviour

end ScriptEngine
