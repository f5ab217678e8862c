import DownloadQueue.Text.CombiningClass
import DownloadQueue.Text.Composite

namespace DownloadQueue.Text

/-- Puts a character before others; a mark moves behind marks of lower classes. -/
def insertMark (c : Char) : List Char → List Char
  | [] => [c]
  | d :: ds =>
    if 0 < combiningClass d ∧ combiningClass d < combiningClass c then d :: insertMark c ds
    else c :: d :: ds

def orderMarks : List Char → List Char
  | [] => []
  | c :: cs => insertMark c (orderMarks cs)

/--
Composes a letter with what follows. `held` are the marks behind the letter that it was not composed
with; they block a mark that is not of a higher class.
-/
def composeWith (letter : Char) (held : List Char) : List Char → List Char
  | [] => letter :: held
  | c :: cs =>
    let isFree := held.getLast?.all fun mark => combiningClass mark < combiningClass c
    match if isFree then compose? letter c else none with
    | some composite => composeWith composite held cs
    | none =>
      if combiningClass c = 0 then letter :: held ++ composeWith c [] cs
      else composeWith letter (held ++ [c]) cs

def composeAll : List Char → List Char
  | [] => []
  | c :: cs => if combiningClass c = 0 then composeWith c [] cs else c :: composeAll cs

def normalize (text : List Char) : List Char :=
  composeAll (orderMarks (text.flatMap decompose))

end DownloadQueue.Text
