import GyreWard.Lib.Action
import GyreWard.Lib.Slots
import GyreWard.Model.Rng
import GyreWard.Model.Wire
import GyreWard.Model.Store
import GyreWard.Model.Taskweft
import GyreWard.Model.Planner
import GyreWard.Model.Ward
import GyreWard.Model.Cbor
import GyreWard.Model.Interactor
import GyreWard.Model.Service
import GyreWard.Model.Transport
import GyreWard.Abstract.Till
import GyreWard.Proofs.Seats
import GyreWard.Proofs.Interference
import GyreWard.Proofs.LongCommand
import GyreWard.Proofs.Quiet
import GyreWard.Proofs.Building
import GyreWard.Proofs.Commissions
import GyreWard.Proofs.Search
import GyreWard.Proofs.Plan
import GyreWard.Proofs.CborItems
import GyreWard.Proofs.Reply
import GyreWard.Proofs.Moves
import GyreWard.Proofs.Outside
import GyreWard.Proofs.Groups
import GyreWard.Proofs.Statements
import GyreWard.Proofs.Founding
import GyreWard.Proofs.Sound
import GyreWard.Proofs.Bracket
import GyreWard.Proofs.FailedCycle
import GyreWard.Proofs.Payment
import GyreWard.Proofs.AllOrNothing
import GyreWard.Proofs.AccountBook
import GyreWard.Proofs.Served
import GyreWard.Proofs.Books
import GyreWard.Proofs.Shown
import GyreWard.Proofs.Mirror
import GyreWard.Proofs.Streams
import GyreWard.Proofs.Decision
import GyreWard.Lib.Capped
import GyreWard.Model.Freeze
import GyreWard.Proofs.Islands
import GyreWard.Proofs.Promotion
import GyreWard.Model.Game
import GyreWard.Proofs.Wards
import GyreWard.Proofs.Names
import GyreWard.Proofs.Apart
import GyreWard.Proofs.Distinct
import GyreWard.Abstract.Sites
import GyreWard.Proofs.Venues
import GyreWard.Lib.Lockstep
import GyreWard.Proofs.Alike
import GyreWard.Proofs.SideBySide
import GyreWard.Proofs.Lives
import GyreWard.Proofs.Delivery
import GyreWard.Proofs.Sizes
import GyreWard.Proofs.Fitting
import GyreWard.Proofs.OneReply
import GyreWard.Proofs.Migration
import GyreWard.Proofs.Crossing
import GyreWard.Proofs.NamedApart
import GyreWard.Lib.Calls
import GyreWard.Proofs.Enrolment
import GyreWard.Lib.ChaCha
import GyreWard.Lib.Draws
import GyreWard.Proofs.Fairness
import GyreWard.Lib.Quotes
import GyreWard.Proofs.Quoting
import GyreWard.Lib.Numerals
import GyreWard.Proofs.SalvageNames
import GyreWard.Abstract.Grammar
import GyreWard.Proofs.Decoder
import GyreWard.Lib.Words
import GyreWard.Model.Client
import GyreWard.Proofs.CommandLine
import GyreWard.Proofs.Page
import GyreWard.Model.Thaw
import GyreWard.Proofs.Benches
import GyreWard.Proofs.Stillness
import GyreWard.Proofs.Pieces
import GyreWard.Proofs.RoundTrip
import GyreWard.Lib.Mixing
import GyreWard.Proofs.Hashes
import GyreWard.Model.Timer
import GyreWard.Proofs.Homes
import GyreWard.Proofs.Sleep
import GyreWard.Lib.Rigid
import GyreWard.Model.Poses
import GyreWard.Proofs.Tally
import GyreWard.Proofs.InPlace
import GyreWard.Model.Gaffer
import GyreWard.Proofs.Layout
import GyreWard.Proofs.Arguments
import GyreWard.Lib.Foremost
import GyreWard.Lib.Neighbours
import GyreWard.Model.JavaScript
import GyreWard.Proofs.Frames
import GyreWard.Proofs.Invariants
import GyreWard.Proofs.Keystream
import GyreWard.Proofs.Posting
import GyreWard.Proofs.Sharing
import GyreWard.Proofs.Greedy
import GyreWard.Proofs.Turns
import GyreWard.Lib.Table
import GyreWard.Lib.Crash
import GyreWard.Lib.Ranges
import GyreWard.Model.FdbKeys
import GyreWard.Proofs.KeyRanges
import GyreWard.Model.FdbFile
import GyreWard.Model.FdbVfs
import GyreWard.Model.FdbGroups
import GyreWard.Proofs.FdbBuffer
import GyreWard.Proofs.FdbTxns
import GyreWard.Proofs.FdbReadAhead
import GyreWard.Proofs.FdbImage
import GyreWard.Proofs.FdbCommit
import GyreWard.Proofs.FdbFold
import GyreWard.Proofs.FdbBytes
import GyreWard.Proofs.FdbStrangers
import GyreWard.Proofs.FdbOpen
import GyreWard.Abstract.Volume
import GyreWard.Proofs.FdbVolume
import GyreWard.Proofs.FdbOneWriter
import GyreWard.Proofs.FdbDurability
import GyreWard.Proofs.FdbIntents
import GyreWard.Proofs.FdbRecovery
import GyreWard.Proofs.FdbGroupCommit
import GyreWard.Proofs.FdbGroupLosses
import GyreWard.Proofs.FdbRestaged
import GyreWard.Lib.Fields
import GyreWard.Model.Fanout
import GyreWard.Proofs.Fanout
