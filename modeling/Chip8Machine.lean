import Chip8Machine.Engine.Scene
import Chip8Machine.Engine.Session
import Chip8Machine.History
import Chip8Machine.Keypad.Waiting
import Chip8Machine.Loop.Course
import Chip8Machine.Metronome.Session
import Chip8Machine.Proofs.CallDiscipline
import Chip8Machine.Proofs.CheckedExecution
import Chip8Machine.Proofs.DisplayRecord
import Chip8Machine.Proofs.Noninterference
import Chip8Machine.Proofs.EngineSteps
import Chip8Machine.Proofs.Footprint
import Chip8Machine.Proofs.Halting
import Chip8Machine.Proofs.KeyWait
import Chip8Machine.Proofs.ToneEdges
import Chip8Machine.Proofs.StopRequest
import Chip8Machine.Proofs.EngineLifecycle
import Chip8Machine.Proofs.EngineRest
import Chip8Machine.Proofs.EngineLoss
import Chip8Machine.Proofs.MetronomeErrands
import Chip8Machine.Proofs.Strokes
import Chip8Machine.Proofs.Arithmetic
import Chip8Machine.Proofs.RegisterTransfer
import Chip8Machine.Proofs.StraightLine
import Chip8Machine.Proofs.FontSurvival
import Chip8Machine.Proofs.Countdown
import Chip8Machine.Proofs.KeyRecall
import Chip8Machine.Proofs.Skips
import Chip8Machine.Proofs.DecimalDigits
import Chip8Machine.Proofs.Borrow
import Chip8Machine.Proofs.WordEncoding
import Chip8Machine.Proofs.RunSteps
