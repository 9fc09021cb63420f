/-!
# Stream keys

A stream key names a broadcast. It is a non-empty text of ASCII letters, digits and the four
characters that a URL never escapes, so it is checked before it reaches a credential store or the
media engine.
-/

namespace BroadcastRelay.StreamKey

/-- Whether the character may occur in a stream key. -/
def isKeyChar (c : Char) : Bool :=
  c.isAlphanum || c = '_' || c = '-' || c = '.' || c = '~'

/-- Whether the text is a stream key. -/
def isValid (key : String) : Bool := key ≠ "" && key.toList.all isKeyChar

theorem isValid_iff {key : String} :
    isValid key = true ↔ key ≠ "" ∧ ∀ c ∈ key.toList, isKeyChar c = true := by
  simp [isValid]

end BroadcastRelay.StreamKey
