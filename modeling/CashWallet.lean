import CashWallet.Bytes.Digits
import CashWallet.Json.Scalar
import CashWallet.Main
import CashWallet.Peer.Frame
import CashWallet.Release
import CashWallet.Wallet.Amount
import CashWallet.Proofs.Address.Accumulator
import CashWallet.Proofs.Address.Burst
import CashWallet.Proofs.Address.Codec
import CashWallet.Proofs.Address.Completion
import CashWallet.Proofs.Address.Label
import CashWallet.Proofs.Chain.Codec
import CashWallet.Proofs.CommandLine
import CashWallet.Proofs.Curve.Form
import CashWallet.Proofs.Curve.Modulus
import CashWallet.Proofs.Curve.Signature
import CashWallet.Proofs.Json.Record
import CashWallet.Proofs.Json.Text
import CashWallet.Proofs.Json.Value
import CashWallet.Proofs.Peer.Codec
import CashWallet.Proofs.Peer.Counts
import CashWallet.Proofs.Peer.Delimited
import CashWallet.Proofs.Peer.Reframing
import CashWallet.Proofs.Peer.Stream
import CashWallet.Proofs.Script.Acceptance
import CashWallet.Proofs.Script.Conditional
import CashWallet.Proofs.Script.Partition
import CashWallet.Proofs.Script.Payer
import CashWallet.Proofs.Script.Push
import CashWallet.Proofs.Script.Shape
import CashWallet.Proofs.Script.Spend
import CashWallet.Proofs.Text.Hex
import CashWallet.Proofs.Text.Identifier
import CashWallet.Proofs.Text.Lossy
import CashWallet.Proofs.Text.Utf8
import CashWallet.Proofs.Transaction.Binding
import CashWallet.Proofs.Transaction.Codec
import CashWallet.Proofs.Transaction.Commitment
import CashWallet.Proofs.Transaction.Estimate
import CashWallet.Proofs.Transaction.Name
import CashWallet.Proofs.Transaction.Normal
import CashWallet.Proofs.Transaction.Output
import CashWallet.Proofs.Transaction.Size
import CashWallet.Proofs.Transaction.Token
import CashWallet.Proofs.Wallet.Account
import CashWallet.Proofs.Wallet.Derivation
import CashWallet.Proofs.Wallet.Display
import CashWallet.Proofs.Wallet.Failure
import CashWallet.Proofs.Wallet.Outcome
import CashWallet.Proofs.Wallet.PublicSide
import CashWallet.Proofs.Wallet.Record
import CashWallet.Proofs.Wallet.Resigning
import CashWallet.Proofs.Wallet.SameClaim
import CashWallet.Proofs.Wallet.Session
import CashWallet.Proofs.Wallet.Shapes
import CashWallet.Proofs.Wallet.Signing
import CashWallet.Proofs.Wallet.Totals
import CashWallet.Proofs.Wire.Failure
import CashWallet.Proofs.Wire.Field
import CashWallet.Proofs.Wire.Position
import CashWallet.Proofs.Wire.Prefix
import CashWallet.Proofs.Wire.Row
