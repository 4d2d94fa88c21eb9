import ContractScan.Lexeme
import ContractScan.Text.Units

/-
  From text to tokens: one piece after another until the text is used up. Nothing is skipped and
  nothing fails; what is wrong with a text shows in the kinds of its tokens.
-/

namespace ContractScan

open ContractScan.Text (byteLength)

/-- The token that a piece makes at a place of the text. -/
def Lexeme.toToken (l : Lexeme) (start byte : Nat) : Token :=
  ⟨l.kind, String.ofList l.chars, start, ⟨byte, byte + byteLength l.chars⟩⟩

theorem Lexeme.stop_toToken (l : Lexeme) (start byte : Nat) :
    (l.toToken start byte).stop = start + l.chars.length := by
  simp [Lexeme.toToken, Token.stop]

/-- The tokens of a text that starts at a given character and byte. -/
def tokensFrom (start byte : Nat) : List Char → List Token
  | [] => []
  | c :: r =>
    let piece := Lexeme.first c r
    piece.toToken start byte ::
      tokensFrom (start + piece.chars.length) (byte + byteLength piece.chars)
        ((c :: r).drop piece.chars.length)
termination_by cs => cs.length
decreasing_by exact Lexeme.length_drop_first_lt c r

theorem tokensFrom_nil (start byte : Nat) : tokensFrom start byte [] = [] := by
  rw [tokensFrom]

theorem tokensFrom_cons (start byte : Nat) (c : Char) (r : List Char) :
    tokensFrom start byte (c :: r) = (Lexeme.first c r).toToken start byte ::
      tokensFrom (start + (Lexeme.first c r).chars.length)
        (byte + byteLength (Lexeme.first c r).chars)
        ((c :: r).drop (Lexeme.first c r).chars.length) := by
  rw [tokensFrom]

/-- The tokens of a text. -/
def tokenize (text : String) : List Token := tokensFrom 0 0 text.toList

end ContractScan
