import Decillion.DirectPulls
import Decillion.VaultExecutions

/-!
Which files of a vault can be transferred. The number of shards is limited by the session of a
pull and the size of each of them by a frame, while a vault takes shards of any size; so there
are files that it stores and that no pull ever returns.
-/
namespace Decillion.TransferLimits

open ByteText Blocks JsonValues JsonText JsonStrings Primitives Dictionaries PyErrors PyValues
open Programs HostSystem HostRules Executions HostExecutions AccessRequests ShardManifests
open ShardVault SharedVaults VaultRuns VaultReads VaultWrites VaultExecutions TelepathMessages
open TelepathFrames TelepathNodes TelepathAnswers TelepathPulls TelepathExchanges TelepathServing
open PulledFiles PullRuns ScriptedPeers VaultLabels CarriedPulls MessageSizes DirectPulls

variable {F : Type} [FloatText F] [FloatTime F] [FloatNumber F] [FloatConversion F]

section Limits

variable {course : Course F} {size : ℕ} {content : Bytes} {modelId : String}

end Limits

section Runs

variable {course : Course F} {peerIp : String} {w : World (NodeState F) F}
  {manifest : ModelManifest F} {crypto : Crypto} {root : Path} {env : Env F} {start : Host}
  {size : ℕ} {positive : 0 < size} {call : AddFile F} {budget : ℕ} {machine : Machine}
  {before after : List (VaultCall F × ℕ)} {refuse : Path → Option PyError} {deep : Bytes → Bool}
  (hempty : ∀ path, root <+: path → start.files path = none)
  (hhex : ∀ tick, ∃ id, env.uuid tick = hex id)
  (huuid : Distinct env (runCalls crypto root env start
    (before ++ (.add size positive call, budget) :: after)).tick)
  (hreturned : (runCall crypto root env (.add size positive call, budget)
    (runCalls crypto root env start before)).1 = some (.ok (some manifest)))
  (hpaired : Paired course ⟨crypto, root, passphrase env, (runCalls crypto root env start
    (before ++ (.add size positive call, budget) :: after)).files, refuse, deep⟩)
  (hbegins : Begins course (fun s => s) call.modelId call.modelId w)
  (htime : course.InTime (call.content.length ⌈/⌉ size))
  (hcalm : ∀ tick, machine.spoiled tick = none) (destination : Path) {u : Unit}
  (hmkdir : machine.mkdir (targetDirectory destination call.modelId) = .ok u) (peerIp : String)
include hempty hhex huuid hreturned hpaired hbegins htime hcalm hmkdir

end Runs

section Stored

variable {crypto : Crypto} {root : Path} {env : Env F} (hfault : ∀ tick, env.fault tick = false)
include hfault

end Stored

section Samples

open JsonStrings (WholeFloat)
open RelayedPulls (sampleServer)

variable {size : ℕ} (positive : 0 < size) {count : ℕ} (hpos : 0 < count) (hshort : count ≤ size)
include hpos hshort

end Samples

end Decillion.TransferLimits
