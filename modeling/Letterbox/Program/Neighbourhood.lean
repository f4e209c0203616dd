import Letterbox.Dispatch.Clockwork
import Letterbox.Host.Program
import Letterbox.Net.Local
import Letterbox.Smtp.Sending
import Letterbox.Store.Mailbox

/-! # A neighbourhood made up for the program

A disk with the store on it, programs, and a few ports where others listen: perhaps a user
interface, and a mail host that says the same to everybody. -/

namespace Letterbox

set_option autoImplicit false

structure Neighbourhood where
  disk : Disk
  store : Mailbox
  hostname : String
  listening : List UInt16
  mailHost : Option (UInt16 × Bytes) := none
  talks : List Bytes := []
  saves : Nat := 0

namespace Neighbourhood

def dawn : Nat := 20250101000000000

def keep (n : Neighbourhood) (data : Bytes) : SaveAnswer × Neighbourhood :=
  let (answer, disk) := n.store.save n.disk 0 (Mailbox.messageName dawn n.saves.toUInt32) data
  (answer, { n with disk, saves := n.saves + 1 })

def unreachable (h : RelayHost) (fault : SystemFault) : Failure :=
  .transport ("connect to " ++ h.toText ++ " failed: " ++ fault.message)

def handOn (n : Neighbourhood) (h : RelayHost) (e : Envelope) (data : Bytes) :
    Except Failure Unit × Neighbourhood :=
  match Local.reach n.listening h.host h.port with
  | .error fault => (.error (unreachable h fault), n)
  | .ok () =>
    let script := Smtp.Exchange.script n.hostname h.credentials e data
    let talk := fun (replies : List Bytes) (cut : Smtp.Sending.Cut) =>
      Smtp.Sending.talk Smtp.Sending.never script replies cut
    match n.mailHost with
    | some (port, replies) =>
      if h.port = port then
        let t := talk [replies] .ended
        (t.result?.getD (.ok ()), { n with talks := n.talks ++ [t.sent] })
      else ((talk [] .silent).result?.getD (.ok ()), n)
    | none => ((talk [] .silent).result?.getD (.ok ()), n)

def world : World Neighbourhood where
  load n path := n.store.load n.disk path
  perform n _ e data := match e with
    | .relay host envelope _ => n.handOn host envelope data
    | .invoke program arguments =>
      let (ending, disk) := Host.run n.disk program arguments
      (Ending.verdict program ending, { n with disk })
  list n := n.store.enumerate n.disk
  listTakes _ := 0
  delete n m := match n.store.delete n.disk m.path with
    | .ok disk => (.ok (), { n with disk })
    | .error f => (.error f, n)
  clock _ := 0

end Neighbourhood

end Letterbox
