import PeerWatch.Text.Blank
import PeerWatch.Text.Pattern

/-!
# Links and emphasis in message text

Turns plain text, already escaped, into markup: video addresses become embedded frames, web and mail
addresses become anchors, and words between asterisks or underscores are set in bold or italics. An
address counts only between blanks or at the edge of a line, and punctuation after it stays outside
the anchor.
-/

namespace PeerWatch.Markup

open PeerWatch.Text

/-! ## Characters -/

/-- The two characters beyond ASCII that differ from an ASCII letter in case only: the long s and
the Kelvin sign. -/
def foldLetter (c : Char) : Char :=
  if c = '\u017f' then 's' else if c = '\u212a' then 'k' else c.toLower

def sameLetter (a b : Char) : Bool := foldLetter a == foldLetter b

/-- A letter from a to z, up to case. -/
def isLetter (c : Char) : Bool := (foldLetter c).isLower

def endsAddress (c : Char) : Bool :=
  isLetter c || c.isDigit || "-+&@#/%=~_|".toList.contains c

def inAddress (c : Char) : Bool := endsAddress c || "?!:,.;".toList.contains c

/-- The characters that can stand in the name of a mailbox or a host. -/
def inMailName (c : Char) : Bool := isLetter c || c.isDigit || c == '_' || c == '-'

/-- The punctuation that may stand between an address and the blank after it. -/
def isClosing (c : Char) : Bool := "!?:,.;".toList.contains c

/-- The characters of one parameter of a video address. -/
def inParameter (c : Char) : Bool := c != '&' && !isBlank c

def inEmphasis (c : Char) : Bool := !"/*_<>".toList.contains c

/-! ## Patterns -/

def exactly (c : Char) : Pattern := .one (· == c)

def letters (s : String) : Pattern := .word sameLetter s.toList

/-- The start of a line, or a blank. -/
def lineLead : Pattern := .either (.edge .lineStart) (.one isBlank)

/-- Closing punctuation and then the end of a line or a blank. -/
def lineTail : Pattern :=
  .seq (.run isClosing .longestFirst) (.either (.edge .lineEnd) (.one isBlank))

/-- The start of the text, or a blank. -/
def textLead : Pattern := .either (.edge .textStart) (.one isBlank)

/-- The end of the text, or a blank. -/
def textTail : Pattern := .either (.edge .textEnd) (.one isBlank)

def videoAddress : Pattern :=
  .all [.optional (.all [letters "http", .optional (letters "s"), letters "://"]),
    .optional (letters "www."), .either (letters "youtube.com") (letters "youtu.be"), letters "/",
    .optional (letters "watch?v=")]

def webAddress : Pattern :=
  .all [.either (.seq (letters "http") (.optional (letters "s"))) (letters "ftp"), letters "://",
    .run inAddress .longestFirst, .one endsAddress]

/-- A host name that starts with `www.`, and all that follows it up to a blank. -/
def hostAddress : Pattern :=
  .seq (letters "www.") (.some (fun c => !isBlank c) .longestFirst)

/-- A mail address: mailbox, host and at least one domain of two to six letters. -/
def mailAddress : Pattern :=
  let domain := .all [exactly '.', .one isLetter, .one isLetter, .upTo isLetter 4]
  .all [.some inMailName .longestFirst, exactly '@', .some inMailName .shortestFirst, domain,
    .rounds domain]

/-! ## Substitutions -/

/-- A video address becomes a frame that plays the video. -/
def embedVideo : Substitution where
  parts := [lineLead, videoAddress, .some inParameter .longestFirst,
    .rounds (.seq (exactly '&') (.some inParameter .longestFirst)), lineTail]
  inserts := [.text "<iframe width=\"427\" height=\"240\" src=\"http://www.youtube.com/embed/",
    .part 2, .text "\" frameborder=\"0\" allowfullscreen></iframe>"]

/-- A web address becomes an anchor that opens a new page. -/
def linkWeb : Substitution where
  parts := [lineLead, webAddress, lineTail]
  inserts := [.part 0, .text "<a target=\"_blank\" href=\"", .part 1, .text "\">", .part 1,
    .text "</a>", .part 2]

def linkHost : Substitution where
  parts := [lineLead, hostAddress, lineTail]
  inserts := [.part 0, .text "<a target=\"_blank\" href=\"http://", .part 1, .text "\">", .part 1,
    .text "</a>", .part 2]

/-- A mail address becomes an anchor that starts a mail. -/
def linkMail : Substitution where
  parts := [lineLead, mailAddress, lineTail]
  inserts := [.part 0, .text "<a href=\"mailto:", .part 1, .text "\">", .part 1, .text "</a>",
    .part 2]

/-- Text between two marks is set in the element `tag`. -/
def emphasize (mark : Char) (tag : String) : Substitution where
  parts := [textLead, exactly mark, .run inEmphasis .longestFirst, exactly mark, textTail]
  inserts := [.part 0, .text ("<" ++ tag ++ ">"), .part 2, .text ("</" ++ tag ++ ">"), .part 4]

/-- The substitutions, in the order in which they are applied. -/
def linkRules : List Substitution :=
  [embedVideo, linkWeb, linkHost, linkMail, emphasize '*' "b", emphasize '_' "i"]

/-- The text with every rule applied to the result of the one before. -/
def linkifyChars (cs : List Char) : List Char :=
  linkRules.foldl (fun text rule => rule.apply text) cs

def linkify (s : String) : String := String.ofList (linkifyChars s.toList)

end PeerWatch.Markup
