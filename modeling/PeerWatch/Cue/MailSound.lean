import PeerWatch.Log.Event

/-!
# The mail sound

The sound comes in two encodings, of which the player gets the one that it supports. It is loaded
once and played for new messages.
-/

namespace PeerWatch.Cue

/-- The encodings of the sound. -/
inductive AudioFormat
  | vorbis
  | m4a
  deriving DecidableEq, Repr

namespace AudioFormat

def mime : AudioFormat → String
  | .vorbis => "audio/ogg; codecs=\"vorbis\""
  | .m4a => "audio/mp4"

def source : AudioFormat → String
  | .vorbis => "/static/message.ogg"
  | .m4a => "/static/message.m4a"

def name : AudioFormat → String
  | .vorbis => "OggVorbis"
  | .m4a => "M4a"

def choose (supports : String → Bool) : AudioFormat :=
  if supports AudioFormat.vorbis.mime then .vorbis else .m4a

end AudioFormat

/-- What a player is asked to do. -/
inductive PlayerCall
  | load (source : String)
  | play
  deriving DecidableEq, Repr

/-- The sound, loaded in the encoding that was chosen. -/
structure MailSound where
  format : AudioFormat
  deriving DecidableEq, Repr

namespace MailSound

def load (supports : String → Bool) : MailSound := ⟨AudioFormat.choose supports⟩

/-- What the player is asked when the sound is loaded and played a number of times. -/
def calls (sound : MailSound) (plays : Nat) : List PlayerCall :=
  .load sound.format.source :: List.replicate plays .play

def loadedEvent (sound : MailSound) : Log.Event :=
  ⟨.debug, "teapot_client::notify::sound", "Loading mail sound",
    [("source", .text sound.format.source)]⟩

def describe (sound : MailSound) : String :=
  "MailSound \x7b format: " ++ sound.format.name ++ " \x7d"

end MailSound
end PeerWatch.Cue
