import ShuzaGram.Infra.Flags
import ShuzaGram.Mtproto.Messages.Account

/-!
# The configuration

`messages/help.hpp`: the answer of `help.getConfig`, which has the clock and what the server is started
with in it, and constants.
-/

namespace ShuzaGram.Mtproto.Messages

open Infra

def helpGetConfigTypeId : UInt32 := 0xc4f9186b
def dcOptionTypeId : UInt32 := 0x18b7a10d
def reactionEmojiTypeId : UInt32 := 0x1b2286b8
def configTypeId : UInt32 := 0xcc1a241e

structure DcOption where
  id : Int32 := 0
  ipAddress : Bytes
  port : Int32 := 0

/-- `DcOption::Encode`. -/
def DcOption.encode (o : DcOption) : Bytes :=
  putId dcOptionTypeId ++ (putUint32 0 ++ (putInt32 o.id ++ (putBytes o.ipAddress ++ putInt32 o.port)))

/-- `EncodeReactionEmoji`. -/
def encodeReactionEmoji (emoticon : Bytes) : Bytes := putId reactionEmojiTypeId ++ putBytes emoticon

/-- `messages::Config`. -/
structure HelpConfig where
  dc : Int32 := 1
  ipAddress : Bytes
  port : Int32 := 0
  date : Int := 0
  expires : Int := 0

namespace HelpConfig

/-- `revoke_pm_inbox`, `gif_search_username` and `reactions_default`. -/
def flags : UInt32 := flagBit 6 ||| flagBit 9 ||| flagBit 15

/-- The limits and times from `chat_size_max` to `channels_read_media_period`. -/
def limits : List Int32 :=
  [200, 200000, 100, 120000, 5000, 30000, 300000, 30000, 1500, 60000, 2, 172800, 2147483647, 2147483647, 2419200, 200, 0]

/-- The times of calls. -/
def callTimeouts : List Int32 := [20000, 90000, 30000, 10000]

/-- `caption_length_max` and `message_length_max`. -/
def lengthLimits : List Int32 := [1024, 4096]

/-- The thumb of `reactions_default`. -/
def defaultReaction : Bytes := [0xf0, 0x9f, 0x91, 0x8d]

/-- `Config::Encode`. -/
def encode (c : HelpConfig) : Bytes :=
  let option : DcOption := { id := c.dc, ipAddress := c.ipAddress, port := c.port }
  putId configTypeId ++ (putUint32 flags ++ (putInt32 (Int32.ofInt c.date) ++ (putInt32 (Int32.ofInt c.expires) ++
    (encodeBool false ++ (putInt32 c.dc ++ (putVector DcOption.encode [option] ++ (putBytes [] ++
    (limits.flatMap putInt32 ++ (callTimeouts.flatMap putInt32 ++ (putBytes [] ++ (putBytes (ascii "gif") ++
    (lengthLimits.flatMap putInt32 ++ (putInt32 c.dc ++ encodeReactionEmoji defaultReaction)))))))))))))

end HelpConfig

end ShuzaGram.Mtproto.Messages
