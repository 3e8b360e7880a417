import PresharedTls.Provider

/-!
# A provider for rehearsals

To see how an endpoint bears up against a provider that fails, or that makes records longer than
any cipher would, a rehearsal refuses one kind of call with an alert of choice and otherwise lets
records pass as they are, with some zeros behind those that are sent. Finished is still computed
from real keys, so a rehearsal in which nothing is refused runs through to its end.
-/

namespace PresharedTls

inductive ProviderCall where
  | createEncoder
  | createDecoder
  | protect
  | unprotect
  | verifyData
  deriving DecidableEq

structure Rehearsal where
  refused : Option ProviderCall
  /-- The alert they are refused with. -/
  alert : AlertDescription
  /-- How many zeros a sent record gains. -/
  growth : Nat

namespace Rehearsal

/-- Refuses a call, or lets it go on to `result`. -/
def attempt {α : Type} (rehearsal : Rehearsal) (call : ProviderCall) (result : Except AlertDescription α) :
    Except AlertDescription α :=
  if rehearsal.refused = some call then .error rehearsal.alert else result

def provider (rehearsal : Rehearsal) : Provider Protection where
  createEncoder params sender := rehearsal.attempt .createEncoder (Protection.create params sender)
  createDecoder params sender := rehearsal.attempt .createDecoder (Protection.create params sender)
  protect context _ _ plaintext entropy :=
    (rehearsal.attempt .protect (.ok (plaintext ++ List.replicate rehearsal.growth 0)), context, entropy)
  unprotect context _ _ fragment := (rehearsal.attempt .unprotect (.ok fragment), context)
  verifyData context sender transcript :=
    rehearsal.attempt .verifyData (.ok (context.verifyData sender transcript))

end Rehearsal

end PresharedTls
