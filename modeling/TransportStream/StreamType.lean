/-!
# Stream types

The coding of an elementary stream, as program tables number it, and the stream identifier that
its packetized elementary stream carries.
-/

namespace TransportStream

/-- The coding of an elementary stream.  `other` keeps a code that has no name here. -/
inductive StreamType where
  | mpeg2Video
  | mpeg1Audio
  | mpeg2Audio
  | privateData
  | adtsAac
  | h264
  | h265
  | other (code : UInt8)
  deriving DecidableEq, Hashable

namespace StreamType

def code : StreamType → UInt8
  | mpeg2Video => 0x02
  | mpeg1Audio => 0x03
  | mpeg2Audio => 0x04
  | privateData => 0x06
  | adtsAac => 0x0f
  | h264 => 0x1b
  | h265 => 0x24
  | other code => code

def ofCode (code : UInt8) : StreamType :=
  if code = 0x02 then mpeg2Video
  else if code = 0x03 then mpeg1Audio
  else if code = 0x04 then mpeg2Audio
  else if code = 0x06 then privateData
  else if code = 0x0f then adtsAac
  else if code = 0x1b then h264
  else if code = 0x24 then h265
  else other code

def isAudio : StreamType → Bool
  | mpeg1Audio | mpeg2Audio | adtsAac => true
  | _ => false

def isVideo : StreamType → Bool
  | mpeg2Video | h264 | h265 => true
  | _ => false

/-! ## Stream identifiers -/

/-- Stream identifier of private data and of everything that is neither sound nor pictures. -/
def privateStreamId : UInt8 := 0xbd

def audioStreamId : UInt8 := 0xc0

def videoStreamId : UInt8 := 0xe0

def streamId (t : StreamType) : UInt8 :=
  if t.isAudio then audioStreamId
  else if t.isVideo then videoStreamId
  else privateStreamId

/-- The name of a coding; a code without one is given in decimal. -/
def name : StreamType → String
  | mpeg2Video => "Mpeg2Video"
  | mpeg1Audio => "Mpeg1Audio"
  | mpeg2Audio => "Mpeg2Audio"
  | privateData => "PrivateData"
  | adtsAac => "AdtsAac"
  | h264 => "H264"
  | h265 => "H265"
  | other code => "Other(" ++ toString code.toNat ++ ")"

end StreamType

end TransportStream
