import Ruxmsg.Cli.Text
import Mathlib.Data.List.DropRight

namespace Ruxmsg.Cli

def isWhitespace (c : Char) : Bool :=
  let n := c.toNat
  (9 ≤ n && n ≤ 13) || n = 0x20 || n = 0x85 || n = 0xa0 || n = 0x1680 || (0x2000 ≤ n && n ≤ 0x200a) ||
    n = 0x2028 || n = 0x2029 || n = 0x202f || n = 0x205f || n = 0x3000

namespace Text

def trimStart (text : Text) : Text := text.dropWhile isWhitespace

def trim (text : Text) : Text := (text.dropWhile isWhitespace).rdropWhile isWhitespace

def splitWhitespace (text : Text) : List Text := (text.splitOnP isWhitespace).filter (· ≠ [])

def splitOnce (text : Text) : Option (Text × Text) :=
  match text.dropWhile (fun c => !isWhitespace c) with
  | [] => none
  | _ :: rest => some (text.takeWhile (fun c => !isWhitespace c), rest)

end Text

inductive ProfileCommand
  | init (name : Text)
  | use (name : Text)
  | list
  deriving DecidableEq

inductive TailscaleCommand
  | status
  | up
  | ip
  deriving DecidableEq

inductive Command
  | profile (command : ProfileCommand)
  | start (addr : Text)
  | stop
  | connect (addr : Text)
  | peers
  | use (label : Text)
  | message (label text : Text)
  | close (label : Text)
  | rekey (label : Text)
  | fingerprint (label : Option Text)
  | session (label : Text)
  | chat (label : Option Text)
  | tailscale (command : TailscaleCommand)
  | help
  | quit
  deriving DecidableEq

namespace CommandParser

def oneArg (words : List Text) (command : Text → Command) (usage : String) : Except Text Command :=
  match words with
  | [word] => .ok (command word)
  | _ => .error usage.toList

def optionalArg (words : List Text) (command : Option Text → Command) (usage : String) :
    Except Text Command :=
  match words with
  | [] => .ok (command none)
  | [word] => .ok (command (some word))
  | _ => .error usage.toList

def noArgs (words : List Text) (command : Command) (usage : String) : Except Text Command :=
  match words with
  | [] => .ok command
  | _ => .error ("usage: ".toList ++ usage.toList)

def parseProfile (words : List Text) : Except Text Command :=
  match words with
  | [] => .error "usage: profile <init|use|list> ...".toList
  | subcommand :: words =>
      if subcommand = "init".toList then
        oneArg words (.profile <| .init ·) "usage: profile init <name>"
      else if subcommand = "use".toList then
        oneArg words (.profile <| .use ·) "usage: profile use <name>"
      else if subcommand = "list".toList then noArgs words (.profile .list) "profile list"
      else .error "usage: profile <init|use|list> ...".toList

def parseTailscale (words : List Text) : Except Text Command :=
  if 1 < words.length then .error "usage: tailscale <status|up|ip>".toList
  else
    let subcommand := words.headD "status".toList
    if subcommand = "status".toList then .ok (.tailscale .status)
    else if subcommand = "up".toList then .ok (.tailscale .up)
    else if subcommand = "ip".toList then .ok (.tailscale .ip)
    else .error "usage: tailscale <status|up|ip>".toList

def parseStart (words : List Text) : Except Text Command :=
  match words with
  | [] => .ok (.start "127.0.0.1:4443".toList)
  | [option, addr] =>
      if option = "--addr".toList then .ok (.start addr)
      else .error "usage: start [--addr <addr>]".toList
  | _ => .error "usage: start [--addr <addr>]".toList

/-- What follows the label is the message verbatim. -/
def parseMessage (line : Text) : Except Text Command :=
  match Text.splitOnce (Text.trimStart ((Text.trimStart line).drop 3)) with
  | none => .error "usage: msg <label> <text>".toList
  | some (label, text) =>
      if label = [] ∨ Text.trim text = [] then .error "usage: msg <label> <text>".toList
      else .ok (.message label (Text.trim text))

def parse (line : Text) : Except Text Command :=
  let line := line.trim
  if line = [] then .error "empty command".toList
  else
    let command := line.splitWhitespace.headD []
    let words := line.splitWhitespace.tail
    if command = "profile".toList then parseProfile words
    else if command = "start".toList then parseStart words
    else if command = "stop".toList then noArgs words .stop "stop"
    else if command = "connect".toList then oneArg words .connect "usage: connect <addr>"
    else if command = "peers".toList then noArgs words .peers "peers"
    else if command = "use".toList then oneArg words .use "usage: use <label>"
    else if command = "msg".toList then parseMessage line
    else if command = "close".toList then oneArg words .close "usage: close <label>"
    else if command = "rekey".toList then oneArg words .rekey "usage: rekey <label>"
    else if command = "fingerprint".toList then
      optionalArg words .fingerprint "usage: fingerprint [label]"
    else if command = "session".toList then oneArg words .session "usage: session <label>"
    else if command = "chat".toList then optionalArg words .chat "usage: chat [label]"
    else if command = "tailscale".toList then parseTailscale words
    else if command = "help".toList then noArgs words .help "help"
    else if command = "quit".toList ∨ command = "exit".toList then noArgs words .quit "quit"
    else .error ("unknown command: ".toList ++ command ++ "; type `help`".toList)

end CommandParser

end Ruxmsg.Cli
