/-! What a debugger and its front end agree on: the escape that opens a frame, and
the prompt, the one frame that needs no line feed. -/

namespace Debugline.Wire

structure Config where
  escape : Vector UInt8 3
  prompt : String
  deriving DecidableEq

namespace Config

/-- The escape is ESC `]` `>`. -/
def standard : Config := ⟨#v[0x1b, 0x5d, 0x3e], "dbg> "⟩

/-- Another prompt; the empty text is ignored. -/
def withPrompt (c : Config) (prompt : String) : Config :=
  if prompt.isEmpty then c else { c with prompt }

end Config

end Debugline.Wire
