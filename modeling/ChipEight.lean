import ChipEight.Clock.Call
import ChipEight.CommandLine.Run
import ChipEight.Emulator.Call
import ChipEight.Main
import ChipEight.Proofs.Aliasing
import ChipEight.Proofs.Arithmetic
import ChipEight.Proofs.Assembly
import ChipEight.Proofs.Boards
import ChipEight.Proofs.ByteMap
import ChipEight.Proofs.Caption
import ChipEight.Proofs.ControlFlow
import ChipEight.Proofs.Countdown
import ChipEight.Proofs.Counting
import ChipEight.Proofs.Detectors
import ChipEight.Proofs.Digits
import ChipEight.Proofs.Dispatch
import ChipEight.Proofs.Drawing
import ChipEight.Proofs.EarlyExit
import ChipEight.Proofs.Exits
import ChipEight.Proofs.Interleaving
import ChipEight.Proofs.KeyWait
import ChipEight.Proofs.Keyboard
import ChipEight.Proofs.Latch
import ChipEight.Proofs.Listing
import ChipEight.Proofs.Loading
import ChipEight.Proofs.Observation
import ChipEight.Proofs.Outcome
import ChipEight.Proofs.Picture
import ChipEight.Proofs.Pixels
import ChipEight.Proofs.Randomness
import ChipEight.Proofs.Reloading
import ChipEight.Proofs.Restart
import ChipEight.Proofs.Sprite
import ChipEight.Proofs.Subroutine
import ChipEight.Proofs.Suspension
import ChipEight.Proofs.Transfer
import ChipEight.Proofs.Views
