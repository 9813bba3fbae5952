/-! Powers of the two bases in which numbers are written. -/
namespace VoiceCommand

def twoTo (k : Nat) : Nat := Nat.pow 2 k

def tenTo (k : Nat) : Nat := Nat.pow 10 k

end VoiceCommand
