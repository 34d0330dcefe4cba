import Gd32Bridge.Adc.Converter
import Gd32Bridge.Adc.Fifo
import Gd32Bridge.Adc.Filtered
import Gd32Bridge.Adc.Frames
import Gd32Bridge.Adc.Idle
import Gd32Bridge.Adc.Isolation
import Gd32Bridge.Adc.Laps
import Gd32Bridge.Adc.Lease
import Gd32Bridge.Adc.Lossless
import Gd32Bridge.Adc.Reassembly
import Gd32Bridge.Adc.Realised
import Gd32Bridge.Adc.Recovery
import Gd32Bridge.Adc.Spectrum
import Gd32Bridge.Adc.Tokens
import Gd32Bridge.Adc.Visit
import Gd32Bridge.Boot.Decide
import Gd32Bridge.Boot.Selection
import Gd32Bridge.BootConfig.Atomic
import Gd32Bridge.Factory.Record
import Gd32Bridge.Factory.TrialMarker
import Gd32Bridge.Gpio.Grouped
import Gd32Bridge.I2cClock
import Gd32Bridge.Lib.Burst
import Gd32Bridge.Lib.Transition
import Gd32Bridge.Link.Captures
import Gd32Bridge.Link.InOrder
import Gd32Bridge.Link.Paced
import Gd32Bridge.Link.Replies
import Gd32Bridge.Ota.Damage
import Gd32Bridge.Part.Fallback
import Gd32Bridge.Power.Honoured
import Gd32Bridge.Protocol.ErrorMap
import Gd32Bridge.Pwm.ActiveReload
import Gd32Bridge.Pwm.OneShot
import Gd32Bridge.Pwm.RoundTrip
import Gd32Bridge.System.Cache
import Gd32Bridge.System.Commit
import Gd32Bridge.System.Confined
import Gd32Bridge.System.Counter
import Gd32Bridge.System.Delivery
import Gd32Bridge.System.Demote
import Gd32Bridge.System.Epoch
import Gd32Bridge.System.ErrorByte
import Gd32Bridge.System.Floor
import Gd32Bridge.System.Funnel
import Gd32Bridge.System.NoBrick
import Gd32Bridge.System.Session
import Gd32Bridge.System.Trial
import Gd32Bridge.System.Truthful
import Gd32Bridge.System.Update
import Gd32Bridge.Transport.Damage
import Gd32Bridge.Transport.Grammar
import Gd32Bridge.Transport.Once
import Gd32Bridge.Transport.Staging
import Gd32Bridge.Transport.ZeroExtension
import Gd32Bridge.Trng.Fresh
