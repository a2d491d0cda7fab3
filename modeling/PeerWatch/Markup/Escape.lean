/-!
# Text inside markup

A text is put into markup with its three special characters replaced, so that none of its own
characters can open a tag or an entity.
-/

namespace PeerWatch.Markup

def escapeChar (c : Char) : List Char :=
  if c = '&' then ['&', 'a', 'm', 'p', ';']
  else if c = '<' then ['&', 'l', 't', ';']
  else if c = '>' then ['&', 'g', 't', ';']
  else [c]

def escapeChars (cs : List Char) : List Char := cs.flatMap escapeChar

def escape (s : String) : String := String.ofList (escapeChars s.toList)

end PeerWatch.Markup
