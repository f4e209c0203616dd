import Letterbox.Net.Lines

/-! # A protocol that records its lines

The smallest protocol on lines: it keeps every line as text and obeys a few words. It serves to
watch the line engine and the listener. -/

namespace Letterbox.Recorder

set_option autoImplicit false

def obey (channel : Channel) (line : String) : Channel × Flow :=
  if line = "UTF8" then (channel.setEncoding .utf8, .proceed)
  else if line = "LATIN1" then (channel.setEncoding .latin1, .proceed)
  else if line = "BYE" then (channel, .close)
  else if line = "FAIL" then (channel, .failed (.protocolViolation "told to fail"))
  else if line.startsWith "ECHO " then
    match channel.sendText (line ++ "\r\n") with
    | (channel, .ok ()) => (channel, .proceed)
    | (channel, .error f) => (channel, .failed f)
  else (channel, .proceed)

def protocol (greeting : String) : LineProtocol (List String) where
  begin channel lines :=
    let (channel, result) := channel.sendText greeting
    (channel, lines, result)
  line channel lines raw :=
    let text := channel.connection.encoding.decode raw
    let (channel, flow) := obey channel text
    (channel, lines ++ [text], flow)

end Letterbox.Recorder
