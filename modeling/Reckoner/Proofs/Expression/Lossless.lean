/-
  Nothing of a text is lost when it is cut into tokens.

  * `Expression.lossless_tokenize`: whatever kind an expression is of, its tokens are lossless;
  * `tokenizers_lossless`: **so are those of arithmetic and of bitwise expressions, where there
    are any**; otherwise the first lexeme that is not admitted is named.
-/
import Reckoner.Expression.Lexer
import Reckoner.Proofs.Arithmetic.Scanner
import Reckoner.Proofs.Logic.Scanner

namespace Reckoner

theorem Expression.lossless_tokenize (kind : Kind) (cs : List Char) :
    Lossless isSpace cs (tokenize kind cs) := by
  have htiles : Tiles isSpace (fun _ _ => True) 0 cs
      ((Slice.cut isSpace (lexeme (kind == .unitConversion)) 0 cs).map Slice.piece) :=
    Slice.cut_tiles (fun _ _ _ => trivial) 0 cs
  have hpieces : (tokenize kind cs).map Token.piece =
      (Slice.cut isSpace (lexeme (kind == .unitConversion)) 0 cs).map Slice.piece := by
    rw [tokenize, List.map_map]
    exact List.map_congr_left fun s _ => s.piece_token _
  rw [← hpieces] at htiles
  exact htiles.lossless

/-- **Cutting a text loses nothing of it.** The tokens of an expression of any kind stand in order
where their positions say, and what is in none of them is a space, a tab or the end of a line.
Arithmetic and bitwise expressions are cut into their longest lexemes: if all of these are
admitted, they are the tokens, which lose nothing but blanks; otherwise the failure names the
first that is not. -/
theorem tokenizers_lossless :
    (∀ kind cs, Lossless Expression.isSpace cs (Expression.tokenize kind cs)) ∧
      (∀ cs, Scans Arithmetic.IsLexeme Arithmetic.IsAdmitted cs (Arithmetic.tokenize cs)) ∧
      ∀ cs, Scans Logic.Bitwise.IsLexeme Logic.Bitwise.IsAdmitted cs
        (Logic.Bitwise.tokenize cs) :=
  ⟨Expression.lossless_tokenize, Arithmetic.scans_tokenize, Logic.Bitwise.scans_tokenize⟩

end Reckoner
