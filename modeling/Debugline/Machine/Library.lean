import Debugline.Machine.Shell.Run
import Debugline.Machine.Utility.Count

/-! The programs of the system, by name. -/

namespace Debugline.Machine

/-- What a program does; the first argument is how it was called. -/
def library (name : String) (args : List String) (environment : List (String × String)) : Program :=
  let called := args.headD name
  let rest := args.drop 1
  Effect.toProgram
    (match name with
    | "sh" => Shell.run called rest environment
    | "cat" => Utility.cat called rest
    | "echo" => Utility.echo called rest
    | "head" => Utility.head called rest
    | "tr" => Utility.tr called rest
    | "wc" => Utility.wc called rest
    | "sleep" => Utility.sleep called rest
    | "true" => pure 0
    | "printf" => Utility.printf called rest
    | "kill" => Utility.kill called rest
    | _ => pure 1)

end Debugline.Machine
