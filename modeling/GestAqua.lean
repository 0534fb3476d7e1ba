import GestAqua.Base.Execution
import GestAqua.Pwm.Waveform
import GestAqua.Planning.Progress
import GestAqua.Planning.Schedule
import GestAqua.Planning.LocalDays
import GestAqua.Planning.StopRegistry
import GestAqua.Planning.Launchers
import GestAqua.Planning.Ledger
import GestAqua.Threads.Handshake
import GestAqua.Threads.Silence
import GestAqua.Threads.SingleRun
import GestAqua.Planning.Delays
import GestAqua.Planning.Startup
import GestAqua.Soleil.Brightness
import GestAqua.Soleil.Midnight
import GestAqua.Planning.Launch
import GestAqua.Threads.SelfDelete
import GestAqua.Threads.Teardown
import GestAqua.Planning.NoJoin
import GestAqua.Pwm.Durations
import GestAqua.Source.Lamp
import GestAqua.Threads.Relay
import GestAqua.Pwm.LampOff
import GestAqua.Threads.Interruptions
import GestAqua.Base.Bytes
import GestAqua.Planning.Changes
import GestAqua.Planning.WallClock
import GestAqua.Soleil.Parameters
import GestAqua.Aquarium.Progress
import GestAqua.Aquarium.Smoothness
import GestAqua.Planning.Calendar
import GestAqua.Planning.Atomicity
import GestAqua.Pwm.Pins
import GestAqua.Pwm.HalfLight
import GestAqua.Commun.Checksum
import GestAqua.Threads.MainProgram
import GestAqua.Threads.Termination
import GestAqua.Planning.Leaks
import GestAqua.Threads.TeardownProgress
