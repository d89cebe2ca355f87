import EvmTrace.Recorder.Basic

/-!
# Recording changes

Changes of the state belong to the innermost open call. Changes of gas by nothing and those made
for an ignored reason leave no line.
-/
namespace EvmTrace.Recorder

def consumeGas (r : Recorder) (old amount : UInt64) (reason : GasReason) : Except Fault Step :=
  if reason.isIgnored || amount == 0 then .ok (.idle r)
  else if old < amount then .error ⟨.gasOverdrawn old amount reason, r⟩
  else .ok (.noted r (.gasConsumed old (old - amount) reason)
    (.gasChange r.activeCall old (old - amount) reason))

/-- The sum, or the greatest number of 64 bits. -/
def saturatingAdd (a b : UInt64) : UInt64 :=
  UInt64.ofNat (min (a.toNat + b.toNat) (UInt64.size - 1))

def refundGas (r : Recorder) (old amount : UInt64) : Step :=
  if amount == 0 then .idle r
  else .line r
    (.gasChange r.activeCall old (saturatingAdd old amount) .refundAfterExecution)

def changeBalance (r : Recorder) (address : Address) (old new : Word) (reason : BalanceReason) :
    Step :=
  if reason.isIgnored then .idle r
  else .noted r (.balanceChanged address old new reason)
    (.balanceChange r.activeCall address old new reason)

def changeNonce (r : Recorder) (address : Address) (old new : UInt64) : Step :=
  .line r (.nonceChange r.activeCall address old new)

def changeCode (r : Recorder) (address : Address) (oldHash : Option Hash) (old : Bytes)
    (newHash : Hash) (new : Bytes) : Step :=
  .line r (.codeChange r.activeCall address oldHash old newHash new)

def changeStorage (r : Recorder) (address : Address) (key old new : Hash) : Step :=
  .line r (.storageChange r.activeCall address key old new)

def createAccount (r : Recorder) (address : Address) : Step :=
  .line r (.newAccount r.activeCall address)

def suicide (r : Recorder) (address : Address) (suicided : Bool) (balance : Word) : Step :=
  .line r (.suicide r.activeCall address suicided balance)

def keccak (r : Recorder) (hash : Hash) (preimage : Bytes) : Step :=
  .noted r (.hashComputed hash preimage.length) (.keccak r.activeCall hash preimage)

/-- Logs are numbered across the block, whatever transaction they belong to. -/
def log (r : Recorder) (l : Log) : Step :=
  .line { r with nextLog := r.nextLog + 1 } (.log r.activeCall r.nextLog l)

theorem saturatingAdd_toNat (a b : UInt64) :
    (saturatingAdd a b).toNat = min (a.toNat + b.toNat) (UInt64.size - 1) := by
  rw [saturatingAdd, UInt64.toNat_ofNat']
  exact Nat.mod_eq_of_lt (by simp only [UInt64.size]; omega)

end EvmTrace.Recorder
