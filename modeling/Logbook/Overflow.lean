import Logbook.Text.Duration

/-!
# Full queues

What happens to a command for which a bounded queue has no room.
-/

namespace Logbook

inductive OverflowPolicy where
  /-- Discard the command and count it. -/
  | dropNewest
  /-- Wait for room. -/
  | block
  /-- Wait for room, but no longer than the given time; then discard with an alert. -/
  | blockFor (timeout : Duration)
  /-- Discard, and raise an alert on the first discard and on every thousandth. -/
  | alertAndDrop
  deriving DecidableEq, Repr

namespace OverflowPolicy

instance : Inhabited OverflowPolicy := ⟨alertAndDrop⟩

def text : OverflowPolicy → String
  | dropNewest => "DropNewest"
  | block => "Block"
  | blockFor timeout => "BlockWithTimeout(" ++ timeout.text ++ ")"
  | alertAndDrop => "AlertAndDrop"

end OverflowPolicy

end Logbook
