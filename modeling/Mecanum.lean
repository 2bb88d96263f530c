import Mecanum.Foundations.Trace
import Mecanum.Foundations.CInt
import Mecanum.Foundations.FloatArith
import Mecanum.Foundations.RoundedArith
import Mecanum.Foundations.Trunc
import Mecanum.Foundations.Scaling
import Mecanum.Foundations.Limit
import Mecanum.Foundations.Bits
import Mecanum.Foundations.Cadence
import Mecanum.Foundations.Signal
import Mecanum.Foundations.Conversion
import Mecanum.Foundations.Single
import Mecanum.Foundations.Rates
import Mecanum.Motor.OutputStage
import Mecanum.Motor.DeadTime
import Mecanum.Motor.WriteOrder
import Mecanum.Motor.PwmRequest
import Mecanum.Wheel.EdgeCount
import Mecanum.Wheel.Reversal
import Mecanum.Wheel.Rounding
import Mecanum.Wheel.ModeSwitch
import Mecanum.Wheel.Windup
import Mecanum.Wheel.SpeedStep
import Mecanum.Wheel.SampledSpeed
import Mecanum.Wheel.DutyRange
import Mecanum.Wheel.ControlPeriod
import Mecanum.Wheel.SpeedOverflow
import Mecanum.Wheel.SpeedFilter
import Mecanum.Wheel.Degrees
import Mecanum.Wheel.Odometry
import Mecanum.Wheel.Standstill
import Mecanum.Wheel.Arrival
import Mecanum.Wheel.Leg
import Mecanum.Wheel.SingleLeg
import Mecanum.Wheel.FarLeg
import Mecanum.Wheel.RampLimit
import Mecanum.Wheel.Blocked
import Mecanum.Wheel.OddSymmetry
import Mecanum.Gamepad.ButtonEvents
import Mecanum.Gamepad.ButtonMasks
import Mecanum.Gamepad.Transfer
import Mecanum.Gamepad.Recording
import Mecanum.Gamepad.Waveform
import Mecanum.Gamepad.Blocking
import Mecanum.Gamepad.Recovery
import Mecanum.Gamepad.Startup
import Mecanum.Robot.DriveFraction
import Mecanum.Robot.ModeMachine
import Mecanum.Robot.StickCommand
import Mecanum.Robot.DpadMoves
import Mecanum.Robot.StickMix
import Mecanum.Robot.StopZone
import Mecanum.Robot.WheelSteps
import Mecanum.Robot.Envelope
import Mecanum.Robot.Pilot
import Mecanum.Robot.WheelSwap
import Mecanum.Robot.MoveEnds
import Mecanum.Robot.FarMoves
import Mecanum.Robot.LinkLoss
import Mecanum.Robot.PadLink
import Mecanum.Robot.Autotest
import Mecanum.Robot.BlockedWheel
import Mecanum.Robot.Lockstep
